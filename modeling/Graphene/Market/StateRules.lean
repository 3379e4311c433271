import Graphene.Lib.RunLogic
import Graphene.Market.LimitOrderEvaluators

/-!
# Rules for the basic computations of the market

For any logic of runs: reading, asserting, calculating and looking up leave the state as it is, so
the rest of a sequence starts in the same state, knowing what has been read.

For a run that is known to succeed: how a sequence goes on after its first computation.
-/

namespace Graphene.Market

open Protocol Lib RunLogic

variable {D α β : Type} [AddCommGroup D] {L : RunLogic MarketError MarketState D} {s : MarketState}
  {f : α → MarketM β} {c : Bool} {e : MarketError} {x : Except AssetError α} {key : α → ℕ}
  {T : Table key} {i : ℕ} {g : MarketState → α} {o : α} {a : AssetId}

section Reading

variable {d : β → D}

lemma holds_observe (hf : L.Holds s (f (g s)) d) : L.Holds s (observe g >>= f) d :=
  hf

lemma holds_require {f : Unit → MarketM β} (hfail : c = false → L.fail s e s)
    (hf : c = true → L.Holds s (f ()) d) : L.Holds s (require c e >>= f) d := by
  cases c with
  | true => exact hf rfl
  | false => exact hfail rfl

lemma holds_liftAs {wrap : AssetError → MarketError}
    (hfail : ∀ e, x = .error e → L.fail s (wrap e) s) (hf : ∀ a, x = .ok a → L.Holds s (f a) d) :
    L.Holds s (liftAs wrap x >>= f) d := by
  cases x with
  | ok a => exact hf a rfl
  | error e => exact hfail e rfl

lemma holds_calculate (hfail : ∀ e, x = .error e → L.fail s (.matching e) s)
    (hf : ∀ a, x = .ok a → L.Holds s (f a) d) : L.Holds s (calculate x >>= f) d :=
  holds_liftAs hfail hf

lemma holds_orThrow {x : Option α} (hfail : x = none → L.fail s e s)
    (hf : ∀ a, x = some a → L.Holds s (f a) d) : L.Holds s (orThrow e x >>= f) d := by
  cases x with
  | some a => exact hf a rfl
  | none => exact hfail rfl

lemma holds_lookup {x : MarketM α} {found : Option α} (hx : x s = orThrow e found s)
    (hfail : found = none → L.fail s e s) (hf : ∀ a, found = some a → L.Holds s (f a) d) :
    L.Holds s (x >>= f) d := by
  have hbind : (x >>= f) s = (orThrow e found >>= f) s := by
    change EStateM.bind x f s = EStateM.bind (orThrow e found) f s
    simp only [EStateM.bind, hx]
  unfold Holds
  rw [hbind]
  exact holds_orThrow hfail hf

lemma fetch_ok_iff {s' : MarketState} :
    T.fetch i s = .ok o s' ↔ (T.get s).find i = some o ∧ s' = s := by
  unfold Table.fetch
  cases (T.get s).find i with
  | none => simp
  | some => simp [eq_comm]

lemma holds_fetch (hfail : (T.get s).find i = none → L.fail s T.missing s)
    (hf : ∀ o, (T.get s).find i = some o → L.Holds s (f o) d) : L.Holds s (T.fetch i >>= f) d := by
  refine holds_lookup ?_ hfail hf
  unfold Table.fetch
  cases (T.get s).find i <;> rfl

lemma holds_bitassetData {f : BitassetData → MarketM β}
    (hfail : s.bitassets.find a = none → L.fail s .notMarketIssued s)
    (hf : ∀ b, s.bitassets.find a = some b → L.Holds s (f b) d) :
    L.Holds s (bitassetData a >>= f) d := by
  refine holds_lookup ?_ hfail hf
  unfold bitassetData
  cases s.bitassets.find a <;> rfl

end Reading

lemma holds_whenever {x : MarketM Unit} {d : Unit → D} (hno : c = false → d () = 0)
    (hyes : c = true → L.Holds s x d) : L.Holds s (whenever c x) d := by
  cases c with
  | true => exact hyes rfl
  | false => exact holds_pure (hno rfl)

lemma addCoreInOrders_bind (account : AccountId) (delta : Asset) (f : Unit → MarketM β) :
    (addCoreInOrders account delta >>= f) s
      = f () { s with coreInOrders := s.coreCounted account delta } :=
  rfl

variable {account : AccountId} {delta : Asset}

lemma holds_addCoreInOrders {d : D} (h : ∀ counts, L.step s { s with coreInOrders := counts } d) :
    L.Holds s (addCoreInOrders account delta) fun _ => d :=
  h _

lemma holds_attempt {x : MarketM α} (h : L.Holds s x fun _ => 0) :
    L.Holds s (attempt x) fun _ => 0 := by
  unfold attempt
  cases hx : x s with
  | ok =>
    rw [holds_ok (x := fun s => _) (by simp only [hx]; rfl)]
    exact h.step hx
  | error =>
    rw [holds_ok (x := fun s => _) (by simp only [hx]; rfl)]
    exact L.refl s

lemma returns_require {f : Unit → MarketM α} {P : α → Prop} (hf : c = true → Returns (f ()) P) :
    Returns (require c e >>= f) P := by
  cases c with
  | true => exact hf rfl
  | false =>
    intro s r t h
    cases h

variable {r : α}

section Inversion

variable {t : MarketState}

lemma pure_ok_iff {a : α} : (pure a : MarketM α) s = .ok r t ↔ r = a ∧ t = s := by
  constructor
  · intro h
    cases h
    exact ⟨rfl, rfl⟩
  · rintro ⟨rfl, rfl⟩
    rfl

lemma require_ok_iff {u : Unit} : require c e s = .ok u t ↔ c = true ∧ t = s := by
  cases c with
  | true => simp [require, pure_ok_iff]
  | false => exact ⟨nofun, nofun⟩

lemma observe_ok_iff : observe g s = .ok r t ↔ r = g s ∧ t = s := pure_ok_iff

lemma bitassetData_ok_iff {b : BitassetData} :
    bitassetData a s = .ok b t ↔ s.bitassets.find a = some b ∧ t = s := by
  unfold bitassetData
  cases s.bitassets.find a with
  | none => simp
  | some => simp [eq_comm]

lemma calculate_ok_iff : calculate x s = .ok r t ↔ x = .ok r ∧ t = s := by
  cases x with
  | error => exact ⟨nofun, nofun⟩
  | ok => simp [calculate, liftAs, pure_ok_iff, eq_comm]

lemma remove_ok_iff :
    T.remove i s = .ok o t ↔ (T.get s).find i = some o ∧ t = T.set ((T.get s).remove i) s := by
  unfold Table.remove
  cases (T.get s).find i with
  | none => simp
  | some =>
    simp only [EStateM.Result.ok.injEq, Option.some.injEq]
    exact and_congr_right fun _ => eq_comm

lemma orThrow_ok_iff {x : Option α} : orThrow e x s = .ok r t ↔ x = some r ∧ t = s := by
  cases x with
  | none => exact ⟨nofun, nofun⟩
  | some => simp [orThrow, pure_ok_iff, eq_comm]

end Inversion

section Runs

variable {key : α → ℕ} {T : Table key} {i : ℕ} {o : α} {b : BitassetData} {a : AssetId}

lemma observe_bind : (observe g >>= f) s = f (g s) s :=
  rfl

lemma require_bind (h : c = true) (f : Unit → MarketM β) : (require c e >>= f) s = f () s := by
  subst h
  rfl

lemma calculate_bind (h : x = .ok r) : (calculate x >>= f) s = f r s := by
  subst h
  rfl

lemma bitassetData_bind (h : s.bitassets.find a = some b) (f : BitassetData → MarketM β) :
    (bitassetData a >>= f) s = f b s :=
  bind_run (by simp only [bitassetData, h]) f

lemma modifyBitasset_run (h : s.bitassets.find a = some b) (f : BitassetData → BitassetData) :
    modifyBitasset a f s = .ok () { s with bitassets := s.bitassets.put (f b) } := by
  simp only [modifyBitasset, h]

lemma modify_bind (h : (T.get s).find i = some o) (g : α → α) :
    (T.modify i g >>= f) s = f o (T.set ((T.get s).write (g o)) s) :=
  bind_run (by simp only [Table.modify, h]) f

lemma remove_bind (h : (T.get s).find i = some o) :
    (T.remove i >>= f) s = f o (T.set ((T.get s).remove i) s) :=
  bind_run (by simp only [Table.remove, h]) f

lemma whenever_true (x : MarketM Unit) : whenever true x = x := rfl

lemma whenever_false (x : MarketM Unit) : whenever false x s = .ok () s := rfl

lemma adjustBalance_run (hpos : 0 ≤ delta.amount) :
    adjustBalance account delta s = deposit (.balance account delta.assetId) delta.amount s := by
  rw [adjustBalance, observe_bind, require_bind (by simp [hpos])]

end Runs

end Graphene.Market
