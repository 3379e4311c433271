import Mathlib

/-!
# Address authorities

`sign_state::signed_by`.  The addresses of all keys are computed at the first query for an address.  For
an address that no key has, the function dereferences a past-the-end iterator.
-/

namespace Graphene.Protocol

open List

/-- `pts_address( key, compressed, version )` and `address( key )`. -/
structure AddressForms (K A : Type) where
  ptsAddress : K → Bool → Nat → A
  address : K → A

def AddressForms.all {K A : Type} (f : AddressForms K A) (k : K) : List A :=
  [f.ptsAddress k false 56, f.ptsAddress k true 56, f.ptsAddress k false 0, f.ptsAddress k true 0,
    f.address k]

/-- `sign_state`, without the approvals of accounts. -/
structure AddressSignState (K A : Type) where
  availableKeys : List K
  providedSignatures : AList fun _ : K => Bool
  /-- `available_address_sigs` and `provided_address_sigs`, with the last write first -/
  addressSigs : Option (List (A × K) × List (A × K)) := none

namespace AddressSignState

variable {K A : Type} [LinearOrder K] (f : AddressForms K A)

/-- The entries that a loop over the keys, in their order, writes. -/
def sigsOf (keys : List K) : List (A × K) :=
  ((keys.insertionSort (· ≤ ·)).flatMap fun k => (f.all k).map (·, k)).reverse

/-- `provided_signatures[k] = true`. -/
def mark (k : K) (s : AddressSignState K A) : AddressSignState K A :=
  { s with providedSignatures := s.providedSignatures.insert k true }

def signedBy (k : K) (s : AddressSignState K A) : Bool × AddressSignState K A :=
  if k ∈ s.providedSignatures ∨ k ∈ s.availableKeys then (true, s.mark k) else (false, s)

/-- The key is provided or available, and has the address. -/
def Known (s : AddressSignState K A) (k : K) (a : A) : Prop :=
  (k ∈ s.availableKeys ∨ k ∈ s.providedSignatures) ∧ a ∈ f.all k

/-- `keys` has all provided keys, and only keys that were provided or available. -/
def Covers (s₀ : AddressSignState K A) (keys : List K) : Prop :=
  s₀.providedSignatures.keys ⊆ keys ∧ keys ⊆ s₀.availableKeys ++ s₀.providedSignatures.keys

/-- What queries keep. -/
structure Tracks (s₀ s : AddressSignState K A) : Prop where
  available : s.availableKeys = s₀.availableKeys
  covers : s₀.Covers s.providedSignatures.keys
  sigs : ∀ p, s.addressSigs = some p → ∃ keys, p = (sigsOf f s₀.availableKeys, sigsOf f keys) ∧
    s₀.Covers keys

variable {f} {s₀ s : AddressSignState K A} {k : K} {a : A} {keys : List K}

lemma Tracks.mark (h : Tracks f s₀ s) (hk : k ∈ s₀.availableKeys ++ s₀.providedSignatures.keys) :
    Tracks f s₀ (s.mark k) where
  available := h.available
  covers := by
    refine ⟨fun k' hk' => (AList.mem_insert _).2 (.inr (h.covers.1 hk')), fun k' hk' => ?_⟩
    rcases (AList.mem_insert _).1 hk' with rfl | hk'
    exacts [hk, h.covers.2 hk']
  sigs := h.sigs

lemma mem_sigsOf : (a, k) ∈ sigsOf f keys ↔ k ∈ keys ∧ a ∈ f.all k := by
  simp [sigsOf]

variable [DecidableEq A]

/-- `signed_by( address )`; nothing where `itr->second` is read at the end of the map. -/
def signedByAddress (f : AddressForms K A) (a : A) (s : AddressSignState K A) :
    Option (Bool × AddressSignState K A) :=
  let sigs := s.addressSigs.getD (sigsOf f s.availableKeys, sigsOf f s.providedSignatures.keys)
  let s := { s with addressSigs := some sigs }
  match sigs.2.lookup a, sigs.1.lookup a with
  | some k, _ => some (true, s.mark k)
  | none, some k => if k ∈ s.availableKeys then some (true, s.mark k) else some (false, s)
  | none, none => none

/-- The states that queries by key and by address lead to. -/
inductive Queried (f : AddressForms K A) (s₀ : AddressSignState K A) : AddressSignState K A → Prop
  | start : Queried f s₀ s₀
  | key {s : AddressSignState K A} (h : Queried f s₀ s) (k : K) : Queried f s₀ (s.signedBy k).2
  | address {s t : AddressSignState K A} {a : A} {b : Bool} (h : Queried f s₀ s)
      (ha : s.signedByAddress f a = some (b, t)) : Queried f s₀ t

/-- The query returns whether a key has the address, and marks only such a key. -/
def Decided (f : AddressForms K A) (s₀ s : AddressSignState K A) (a : A) : Prop :=
  ∃ b t, s.signedByAddress f a = some (b, t) ∧ (b = true ↔ ∃ k, s₀.Known f k a) ∧
    (t.providedSignatures = s.providedSignatures ∨
      ∃ k, s₀.Known f k a ∧ t.providedSignatures = (s.mark k).providedSignatures)

lemma mem_of_lookup_sigsOf (h : (sigsOf f keys).lookup a = some k) : k ∈ keys ∧ a ∈ f.all k := by
  obtain ⟨l, l', heq, -⟩ := lookup_eq_some_iff.1 h
  exact mem_sigsOf.1 (heq ▸ mem_append_right _ mem_cons_self)

lemma notMem_of_lookup_sigsOf (h : (sigsOf f keys).lookup a = none) (hk : k ∈ keys) : a ∉ f.all k := by
  intro ha
  simpa using lookup_eq_none_iff.1 h _ (mem_sigsOf.2 ⟨hk, ha⟩)

lemma Tracks.signedByAddress (h : Tracks f s₀ s) (a : A) :
    (s.signedByAddress f a = none ∧ ∀ k, ¬ s₀.Known f k a) ∨
    ∃ k t, s₀.Known f k a ∧ s.signedByAddress f a = some (true, t) ∧ Tracks f s₀ t ∧
      t.providedSignatures = (s.mark k).providedSignatures := by
  obtain ⟨keys, hsigs, hkeys⟩ : ∃ keys, s.addressSigs.getD (sigsOf f s.availableKeys,
      sigsOf f s.providedSignatures.keys) = (sigsOf f s₀.availableKeys, sigsOf f keys) ∧
      s₀.Covers keys := by
    -- the maps are those of the first query, or are computed now
    cases hs : s.addressSigs with
    | none => exact ⟨_, by rw [h.available]; rfl, h.covers⟩
    | some p => exact h.sigs p hs
  have ht : Tracks f s₀ { s with addressSigs := some (sigsOf f s₀.availableKeys, sigsOf f keys) } :=
    ⟨h.available, h.covers, fun p hp => ⟨keys, by cases hp; rfl, hkeys⟩⟩
  unfold AddressSignState.signedByAddress
  simp only [hsigs]
  cases hprov : (sigsOf f keys).lookup a with
  | some k =>
    obtain ⟨hk, ha⟩ := mem_of_lookup_sigsOf hprov
    exact .inr ⟨k, _, ⟨mem_append.1 (hkeys.2 hk), ha⟩, rfl, ht.mark (hkeys.2 hk), rfl⟩
  | none =>
    cases havail : (sigsOf f s₀.availableKeys).lookup a with
    | some k =>
      obtain ⟨hk, ha⟩ := mem_of_lookup_sigsOf havail
      exact .inr ⟨k, _, ⟨.inl hk, ha⟩, if_pos (h.available ▸ hk), ht.mark (mem_append_left _ hk), rfl⟩
    | none =>
      -- the address is in neither map, and the iterator at the end is dereferenced
      refine .inl ⟨rfl, ?_⟩
      rintro k ⟨hk | hk, ha⟩
      exacts [notMem_of_lookup_sigsOf havail hk ha, notMem_of_lookup_sigsOf hprov (hkeys.1 hk) ha]

lemma Queried.tracks (h : Queried f s₀ s) (hnew : s₀.addressSigs = none) : Tracks f s₀ s := by
  induction h with
  | start =>
    exact ⟨rfl, ⟨Subset.refl _, subset_append_right _ _⟩, fun p hp => by cases hnew.symm.trans hp⟩
  | key _ k ih =>
    -- only a key that is provided or available gets marked
    unfold signedBy
    split_ifs with hk
    · exact ih.mark (hk.elim (ih.covers.2 ·) fun hk => mem_append_left _ (ih.available ▸ hk))
    · exact ih
  | address _ ha ih =>
    rcases ih.signedByAddress _ with ⟨hnone, -⟩ | ⟨k, t, -, hsome, ht, -⟩
    · cases hnone.symm.trans ha
    · cases hsome.symm.trans ha
      exact ht

/-- After any queries, a query for an address is decided if and only if a key has the address. -/
theorem address_decided_iff (hnew : s₀.addressSigs = none) (h : Queried f s₀ s) (a : A) :
    Decided f s₀ s a ↔ ∃ k, s₀.Known f k a := by
  rcases (h.tracks hnew).signedByAddress a with ⟨hnone, hno⟩ | ⟨k, t, hk, hsome, -, ht⟩
  · refine ⟨?_, fun ⟨k, hk⟩ => absurd hk (hno k)⟩
    rintro ⟨b, t, hb, -⟩
    cases hnone.symm.trans hb
  · exact ⟨fun _ => ⟨k, hk⟩, fun hex => ⟨true, t, hsome, ⟨fun _ => hex, fun _ => rfl⟩, .inr ⟨k, hk, ht⟩⟩⟩

def plainForms : AddressForms Nat Nat where
  ptsAddress := fun k compressed version => 1000 * k + version + compressed.toNat
  address := fun k => 1000 * k + 999

def twoKeys : AddressSignState Nat Nat where
  availableKeys := [8]
  providedSignatures := .singleton 7 false

/-- After a query for key 7, the available key 8 is found by its address. -/
theorem address_decided_iff_available : Decided plainForms twoKeys (twoKeys.signedBy 7).2 8999 :=
  (address_decided_iff rfl (.key .start 7) 8999).2 ⟨8, .inl (by decide), by decide⟩

theorem unknown_address_dereferenced : twoKeys.signedByAddress plainForms 5 = none := by decide

end AddressSignState
end Graphene.Protocol
