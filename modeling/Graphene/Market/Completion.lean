import Graphene.Market.EvaluationRules
import Graphene.Market.LimitMatching

/-!
# Runs that come to an end

The loops of the market are given a number of rounds.  A run completes if it does not stop for lack
of rounds; it may still throw.  Fees leave the tables of orders alone, and filling or cancelling a
limit order that has no automatic action changes this one order only, apart from the link of a take
profit order.
-/

namespace Graphene.Market

open Protocol Lib RunLogic Keyed Context

variable {α β : Type} {s t u : MarketState} {env : Env} {cx : Context}

/-- The run does not stop for lack of rounds, and what it ends with satisfies `Q`. -/
abbrev Completes (s : MarketState) (x : MarketM α) (Q : α → MarketState → Prop) : Prop :=
  Ends (· ≠ .outOfFuel) s x Q

/-! ## The basic computations -/

variable {f : α → MarketM β} {e : MarketError} {x : Except AssetError α} {i : ℕ}

section Basics

variable {R : β → MarketState → Prop}

lemma completes_observe {g : MarketState → α} (h : Completes s (f (g s)) R) :
    Completes s (observe g >>= f) R :=
  h

lemma completes_require {c : Bool} {f : Unit → MarketM β} (he : e ≠ .outOfFuel)
    (hf : c = true → Completes s (f ()) R) : Completes s (require c e >>= f) R := by
  cases c with
  | true => exact hf rfl
  | false => exact he

lemma completes_liftAs {wrap : AssetError → MarketError} (hwrap : ∀ e, wrap e ≠ .outOfFuel)
    (hf : ∀ a, x = .ok a → Completes s (f a) R) : Completes s (liftAs wrap x >>= f) R := by
  cases x with
  | ok a => exact hf a rfl
  | error e => exact hwrap e

lemma completes_calculate (hf : ∀ a, x = .ok a → Completes s (f a) R) :
    Completes s (calculate x >>= f) R :=
  completes_liftAs nofun hf

lemma completes_orThrow {x : Option α} (he : e ≠ .outOfFuel)
    (hf : ∀ a, x = some a → Completes s (f a) R) : Completes s (orThrow e x >>= f) R := by
  cases x with
  | some a => exact hf a rfl
  | none => exact he

lemma completes_fetch {key : α → ℕ} {T : Table key} (hT : T.missing ≠ .outOfFuel)
    (hf : ∀ o, (T.get s).find i = some o → Completes s (f o) R) :
    Completes s (T.fetch i >>= f) R := by
  have hfet : Completes s (T.fetch i) fun o t => (T.get s).find i = some o ∧ t = s :=
    ends_intro (fun _ _ h => fetch_ok_iff.1 h) fun e t h => by
      unfold Table.fetch at h
      split at h
      · cases h
      · cases h
        exact hT
  refine hfet.bind ?_
  rintro o t ⟨ho, rfl⟩
  exact hf o ho

lemma completes_fetchOrder {f : LimitOrder → MarketM β}
    (hf : ∀ o, s.limitOrders.find i = some o → Completes s (f o) R) :
    Completes s (limitOrderTable.fetch i >>= f) R :=
  completes_fetch nofun hf

lemma completes_bitassetData {a : AssetId} {f : BitassetData → MarketM β}
    (hf : ∀ b, s.bitassets.find a = some b → Completes s (f b) R) :
    Completes s (bitassetData a >>= f) R := by
  cases h : s.bitassets.find a with
  | some b =>
    unfold Completes Ends
    rw [bitassetData_bind h]
    exact hf b h
  | none =>
    have hrun : (bitassetData a >>= f) s = .error .notMarketIssued s := by
      change EStateM.bind (bitassetData a) f s = _
      simp [EStateM.bind, bitassetData, h]
    unfold Completes Ends
    rw [hrun]
    rintro ⟨⟩

end Basics

structure SameTables (s t : MarketState) : Prop where
  limitOrders : t.limitOrders = s.limitOrders
  callOrders : t.callOrders = s.callOrders
  settlements : t.settlements = s.settlements
  bitassets : t.bitassets = s.bitassets

lemma SameTables.refl (s : MarketState) : SameTables s s := ⟨rfl, rfl, rfl, rfl⟩

lemma SameTables.trans (h : SameTables s t) (h' : SameTables t u) : SameTables s u :=
  ⟨h'.limitOrders.trans h.limitOrders, h'.callOrders.trans h.callOrders,
    h'.settlements.trans h.settlements, h'.bitassets.trans h.bitassets⟩

def tableLogic : RunLogic MarketError MarketState PUnit where
  step := fun s t _ => SameTables s t
  fail := fun _ e _ => e ≠ .outOfFuel
  refl := SameTables.refl
  trans := SameTables.trans
  trans_fail := fun _ h => h

lemma tableRules : EvaluationRules tableLogic (fun _ => 0) fun _ _ => 0 where
  deposit := fun _ _ _ _ => ⟨rfl, rfl, rfl, rfl⟩
  adjust := by
    intro s account delta
    exact holds_observe (holds_require (fun _ => nofun) fun _ => ⟨rfl, rfl, rfl, rfl⟩)
  fail := by
    rintro s e he rfl
    cases he
  reject := by
    rintro s e he rfl
    cases he

lemma sameTables_counts (s : MarketState) (counts : Tally AccountId) :
    tableLogic.step s { s with coreInOrders := counts } 0 :=
  ⟨rfl, rfl, rfl, rfl⟩

lemma completes_of_tables {x : MarketM α} {d : α → PUnit} (h : tableLogic.Holds s x d) :
    Completes s x fun _ t => SameTables s t :=
  ends_intro (fun _ _ hx => h.step hx) fun _ _ hx => h.fail hx

/-! ## One limit order -/

def LimitOrder.unlinked (o : LimitOrder) : LimitOrder :=
  { o with takeProfitOrderId := none }

open LimitOrder (unlinked)

/-- Only one limit order is changed, apart from links. -/
structure OnlyOrder (i : Nat) (s t : MarketState) : Prop where
  others : ∀ j, j ≠ i →
    (t.limitOrders.find j).map LimitOrder.unlinked = (s.limitOrders.find j).map LimitOrder.unlinked
  callOrders : t.callOrders = s.callOrders
  settlements : t.settlements = s.settlements
  bitassets : t.bitassets = s.bitassets

lemma SameTables.onlyOrder (h : SameTables s t) (i : Nat) : OnlyOrder i s t :=
  ⟨fun j _ => by rw [h.limitOrders], h.callOrders, h.settlements, h.bitassets⟩

lemma OnlyOrder.trans {i : Nat} (h : OnlyOrder i s t) (h' : OnlyOrder i t u) : OnlyOrder i s u :=
  ⟨fun j hj => (h'.others j hj).trans (h.others j hj), h'.callOrders.trans h.callOrders,
    h'.settlements.trans h.settlements, h'.bitassets.trans h.bitassets⟩

lemma completes_setLink (i : Nat) (link : Option Nat) :
    Completes s (setLink i link) fun _ t => (∀ j, (t.limitOrders.find j).map unlinked
        = (s.limitOrders.find j).map unlinked) ∧
      t.callOrders = s.callOrders ∧ t.settlements = s.settlements ∧ t.bitassets = s.bitassets := by
  unfold setLink Completes Ends Table.modify
  cases hfind : (limitOrderTable.get s).find i with
  | none => exact nofun
  | some o =>
    refine ⟨fun j => ?_, rfl, rfl, rfl⟩
    have hput := find_put s.limitOrders.toKeyed { o with takeProfitOrderId := link } j
    have hid : o.id = i := key_of_find hfind
    refine (congrArg (Option.map unlinked) hput).trans ?_
    split
    next hj =>
      subst hj
      have hfind' : s.limitOrders.find o.id = some o := hid ▸ hfind
      exact (congrArg (Option.map unlinked) hfind').symm
    next => rfl

lemma unlink_same {link : Option Nat} {r : Unit} (h : unlink link s = .ok r t) (j : Nat) :
    (t.limitOrders.find j).map unlinked
      = (s.limitOrders.find j).map unlinked := by
  cases link with
  | none =>
    cases h
    rfl
  | some i =>
    obtain ⟨_, t', hset, hpure⟩ := bind_ok_iff.1 h
    cases hpure
    exact ((completes_setLink i none).ok hset).1 j

lemma completes_cleanup (o : LimitOrder) : Completes s (cleanupAndRemoveLimitOrder o) fun _ t =>
      OnlyOrder o.id s t ∧ t.limitOrders.find o.id = none := by
  have hrm : ∀ t, Completes t (limitOrderTable.remove o.id) fun _ u =>
      OnlyOrder o.id t u ∧ u.limitOrders.find o.id = none := by
    intro t
    unfold Completes Ends Table.remove
    cases (limitOrderTable.get t).find o.id with
    | none => exact nofun
    | some _ =>
      refine ⟨⟨fun j hj => ?_, rfl, rfl, rfl⟩, ?_⟩
      · refine congrArg (Option.map unlinked) ?_
        exact (find_erase t.limitOrders.toKeyed o.id j).trans (if_neg hj)
      · exact (find_erase t.limitOrders.toKeyed o.id o.id).trans (if_pos rfl)
  have hunl : Completes s (unlink o.takeProfitOrderId) fun _ t => OnlyOrder o.id s t := by
    cases o.takeProfitOrderId with
    | none => exact ends_pure ((SameTables.refl s).onlyOrder _)
    | some link =>
      refine (completes_setLink link none).bind fun _ t h => ends_pure ?_
      exact ⟨fun j _ => h.1 j, h.2.1, h.2.2.1, h.2.2.2⟩
  refine hunl.bind fun _ t ht => (hrm t).mono ?_
  rintro _ u ⟨hu, hgone⟩
  exact ⟨ht.trans hu, hgone⟩

lemma completes_cancelLimitOrder (i : Nat) (createVirtualOp : Bool) :
    Completes s (env.cancelLimitOrder i createVirtualOp) fun _ t =>
      OnlyOrder i s t ∧ t.limitOrders.find i = none := by
  refine completes_fetchOrder fun o ho => ?_
  obtain rfl : o.id = i := key_of_find ho
  refine (completes_of_tables (tableRules.deductCancelFee o _ _)).bind fun left t1 h1 => ?_
  refine (completes_of_tables (holds_addCoreInOrders (sameTables_counts t1))).bind fun _ t2 h2 => ?_
  refine (completes_of_tables (tableRules.adjust t2 _ _)).bind fun _ t3 h3 => ?_
  refine (completes_of_tables (tableRules.refund o left)).bind fun _ t4 h4 => ?_
  refine (completes_cleanup o).bind ?_
  rintro _ t5 ⟨h5, hgone⟩
  exact ends_pure ⟨((((h1.trans h2).trans h3).trans h4).onlyOrder _).trans h5, hgone⟩

variable {o : LimitOrder}

lemma completes_maybeCull (ho : s.limitOrders.find o.id = some o) :
    Completes s (env.maybeCullSmallOrder o.id) fun culled t =>
      OnlyOrder o.id s t ∧ (culled = true → t.limitOrders.find o.id = none) ∧
        (culled = false → t = s ∧ o.asks ≠ 0) := by
  refine completes_fetchOrder fun o' ho' => completes_calculate fun toReceive hreceive => ?_
  obtain rfl : o = o' := Option.mem_unique ho ho'
  obtain ⟨-, -, rfl⟩ := LimitOrder.amountToReceive_eq_ok.1 hreceive
  split
  next =>
    refine (completes_cancelLimitOrder o.id true).bind ?_
    rintro _ t ⟨ht, hgone⟩
    exact ends_pure ⟨ht, fun _ => hgone, by rintro ⟨⟩⟩
  next hasks => exact ends_pure ⟨(SameTables.refl s).onlyOrder _, by rintro ⟨⟩, fun _ => ⟨rfl, hasks⟩⟩

/-! ## Filling -/

/-- What is left of an order that paid a part of what it sells. -/
structure LimitOrder.Remains (o : LimitOrder) (pays : Int) (o' : LimitOrder) : Prop where
  id : o'.id = o.id
  price : o'.sellPrice = o.sellPrice
  forSale : o'.forSale = o.forSale - pays
  isSettledDebt : o'.isSettledDebt = o.isSettledDebt
  onFill : o'.onFill = o.onFill

structure FilledOrder (o : LimitOrder) (pays : Asset) (cullIfSmall filled : Bool)
    (s t : MarketState) : Prop where
  only : OnlyOrder o.id s t
  gone : filled = true → t.limitOrders.find o.id = none
  remains : filled = false → ∃ o', t.limitOrders.find o.id = some o' ∧ o.Remains pays.amount o' ∧
    (cullIfSmall = true → o'.asks ≠ 0)

lemma completes_finishFill (ho : s.limitOrders.find o.id = some o) (pays : Asset)
    (cullIfSmall : Bool) : Completes s (cx.finishFill o pays none cullIfSmall) fun filled t =>
      FilledOrder o pays cullIfSmall filled s t := by
  refine completes_fetchOrder fun now hnow => ?_
  obtain rfl : o = now := Option.mem_unique ho hnow
  have hdro : Completes s (recordDroppedFees o.deferredFees o.deferredFees) fun _ t =>
    SameTables s t := ⟨rfl, rfl, rfl, rfl⟩
  refine hdro.bind fun _ t ht => ?_
  split
  · refine (completes_cleanup o).bind ?_
    rintro _ u ⟨hu, hgone⟩
    exact ends_pure ⟨(ht.onlyOrder _).trans hu, fun _ => hgone, nofun⟩
  · -- a part is left
    have hfind : t.limitOrders.find o.id = some o := ht.limitOrders ▸ ho
    have hmod : Completes t (limitOrderTable.modify o.id (partlyFilled pays none))
        fun _ u => OnlyOrder o.id t u ∧
          u.limitOrders.find o.id = some (partlyFilled pays none o) := by
      unfold Completes Ends Table.modify
      have hfind' : (limitOrderTable.get t).find o.id = some o := hfind
      rw [hfind']
      refine ⟨⟨fun j hj => ?_, rfl, rfl, rfl⟩, ?_⟩
      · refine congrArg (Option.map unlinked) ?_
        exact (find_put t.limitOrders.toKeyed _ j).trans (if_neg hj)
      · exact (find_put t.limitOrders.toKeyed _ o.id).trans (if_pos rfl)
    have hrem : o.Remains pays.amount (partlyFilled pays none o) :=
      ⟨rfl, rfl, rfl, rfl, rfl⟩
    refine Ends.bind (P := fun _ t' => t' = t) (ends_pure rfl) ?_
    rintro _ _ rfl
    refine hmod.bind ?_
    rintro _ u ⟨hu, hnew⟩
    have hsame := (ht.onlyOrder o.id).trans hu
    cases cullIfSmall with
    | false => exact ends_pure ⟨hsame, nofun, fun _ => ⟨_, hnew, hrem, nofun⟩⟩
    | true =>
      refine (completes_maybeCull (o := partlyFilled pays none o) hnew).mono ?_
      rintro culled v ⟨hv, hgone, hleft⟩
      refine ⟨hsame.trans hv, hgone, fun hno => ?_⟩
      obtain ⟨rfl, hasks⟩ := hleft hno
      exact ⟨_, hnew, hrem, fun _ => hasks⟩

lemma processLimitOrderOnFill_none (hact : o.onFill = none) :
    cx.processLimitOrderOnFill o = fun _ => pure none := by
  funext receives
  simp only [processLimitOrderOnFill, hact]

lemma completes_fillLimitOrder (ho : s.limitOrders.find o.id = some o) (hact : o.onFill = none)
    (pays receives : Asset) (cullIfSmall isMaker : Bool) :
    Completes s (cx.fillLimitOrder o.id pays receives cullIfSmall isMaker) fun filled t =>
      FilledOrder o pays cullIfSmall filled s t := by
  refine completes_fetchOrder fun o' ho' => completes_require nofun fun _ => ?_
  obtain rfl : o = o' := Option.mem_unique ho ho'
  refine (completes_of_tables (tableRules.marketFees ⟨nofun, nofun⟩ _ _ _)).bind fun _ t1 h1 => ?_
  refine (completes_of_tables (tableRules.payOrder sameTables_counts _ _ _)).bind fun _ t2 h2 => ?_
  refine (completes_of_tables (tableRules.settleDeferredFees (fun _ _ => rfl) o isMaker)).bind
    fun _ t3 h3 => ?_
  have hsame := (h1.trans h2).trans h3
  rw [processLimitOrderOnFill_none hact, pure_bind]
  have ho3 : t3.limitOrders.find o.id = some o := hsame.limitOrders ▸ ho
  refine (completes_finishFill ho3 pays cullIfSmall).mono fun filled t h => ?_
  exact ⟨(hsame.onlyOrder _).trans h.only, h.gone, h.remains⟩

end Graphene.Market
