import Graphene.Market.FeeRules

/-!
# Rules for the evaluation of operations

Evaluating an operation on limit orders reads and asserts, and changes nothing.  So for any logic in
which the assertions may fail, evaluation adds nothing.
-/

namespace Graphene.Market

open Protocol Lib RunLogic

def MarketError.ofEvaluation : MarketError → Bool
  | .evaluating _ | .insufficientBalance | .unknownLimitOrder | .unknownAsset | .invalidOperation
  | .unauthorizedAsset | .marketNotAllowed | .expired | .ownerMismatch | .incompatibleUpdate
  | .orderTooSmall | .killUnfilled => true
  | _ => false

variable {D β : Type} [AddCommGroup D] {L : RunLogic MarketError MarketState D}
  {F : AssetId → ℤ →+ D} {C : AccountId → Asset → D} {s : MarketState} {env : Env}

/-- The rules for fees, in a logic in which evaluation may fail. -/
structure EvaluationRules (L : RunLogic MarketError MarketState D) (F : AssetId → ℤ →+ D)
    (C : AccountId → Asset → D) : Prop extends FeeRules L F C where
  reject : ∀ (s : MarketState) (e : MarketError), e.ofEvaluation = true → L.fail s e s

variable {d : β → D} {c : Bool} {e : MarketError} (op : LimitOrderUpdate)

namespace EvaluationRules

variable (R : EvaluationRules L F C)

include R

lemma andAssert {f : Unit → MarketM β} (he : e.ofEvaluation = true)
    (hf : c = true → L.Holds s (f ()) d) : L.Holds s (require c e >>= f) d :=
  holds_require (fun _ => R.reject s e he) hf

lemma assertion (he : e.ofEvaluation = true) : L.Holds s (require c e) fun _ => 0 := by
  cases c with
  | true => exact holds_pure rfl
  | false => exact holds_throw (R.reject s e he)

lemma andFetch {i : ℕ} {f : LimitOrder → MarketM β}
    (hf : ∀ o, s.limitOrders.find i = some o → L.Holds s (f o) d) :
    L.Holds s (limitOrderTable.fetch i >>= f) d :=
  holds_fetch (fun _ => R.reject s _ rfl) hf

lemma checkAction (action : Option TakeProfitAction) :
    L.Holds s (env.checkAction action) fun _ => 0 := by
  cases action with
  | none => exact holds_pure rfl
  | some action => exact R.andGetAsset fun _ => holds_pure rfl

lemma checkMarket (seller : AccountId) (sold received : AssetId) :
    L.Holds s (env.checkMarket seller sold received) fun _ => 0 := by
  refine R.andGetAsset fun _ => R.andGetAsset fun _ => R.andAssert rfl fun _ => ?_
  exact R.andAssert rfl fun _ => R.andAssert rfl fun _ => R.assertion rfl

lemma evaluateCreate (op : LimitOrderCreate) : L.Holds s (env.evaluateCreate op) fun _ => 0 := by
  refine (R.checkAction _).andThen fun _ _ _ => R.andAssert rfl fun _ => ?_
  exact (R.checkMarket _ _ _).andThen fun _ _ _ => holds_observe (R.assertion rfl)

lemma checkDust (o : LimitOrder) : L.Holds s (op.checkDust o) fun _ => 0 := by
  unfold LimitOrderUpdate.checkDust
  split
  · exact holds_liftAs (fun _ _ => R.reject s _ rfl) fun _ _ => R.assertion rfl
  · exact holds_pure rfl

lemma evaluateUpdate : L.Holds s (op.evaluate env) fun _ => 0 := by
  refine (R.checkAction _).andThen fun _ _ _ => R.andFetch fun o _ => R.andAssert rfl fun _ => ?_
  refine R.andAssert rfl fun _ => R.andAssert rfl fun _ => ?_
  refine (R.checkDust op o).andThen fun _ _ _ => R.andAssert rfl fun _ => ?_
  exact (R.checkMarket _ _ _).andThen fun _ _ _ => holds_pure rfl

lemma evaluateCancel (op : LimitOrderCancel) : L.Holds s op.evaluate fun _ => 0 :=
  R.andFetch fun _ _ => R.assertion rfl

end EvaluationRules

end Graphene.Market
