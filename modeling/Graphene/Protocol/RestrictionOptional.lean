import Graphene.Lib.Outcome
import Graphene.Protocol.RestrictionPredicate

/-!
# Restrictions on optional fields

The classes for `optional` fields do not reach the operator of their base: it is hidden,
and the contained value converts back to an optional.  So every comparison, equality
with a value, `has_all` and `has_none` of a present optional runs forever.  `in` and
`not_in` look the contained value up themselves.

On an absent optional these functions do return.  The rejection is converted to the
result type of the operator, and as the result of a comparison it means "equal": `le`
and `ge` are satisfied.
-/

namespace Graphene.Protocol

open Lib List FieldType Option

lemma resolveCall_declared : resolveCall (lookupCallOperator false) = some .declared := rfl

variable (fuel : Nat)

section Operators

variable {α R : Type} {onNull : R} {base : Nat → α → Option R}

lemma optionalOperator_some (f : α) : optionalOperator onNull base fuel (some f) = none := by
  induction fuel with
  | zero => rfl
  | succ fuel ih => simpa [optionalOperator, resolveCall_declared] using ih

/-- With a using-declaration the base would have been called. -/
example : resolveCall (lookupCallOperator true) = some .inherited := rfl

end Operators

/-- The functions whose functor for an optional field calls the hidden operator. -/
def HidesBase (f : RestrictionFunction) (arg : Argument) : Prop :=
  match f with
  | .eq | .ne => arg ≠ .void
  | .lt | .le | .gt | .ge | .hasAll | .hasNone => True
  | _ => False

/-- A predicate that returns the translated result of the operator for `optional`. -/
def ViaOptional {t : FieldType} (p : Predicate (.optional t)) (satisfiedByNull : Bool) : Prop :=
  ∃ (R : Type) (onNull : R) (base : Functor t R) (g : R → PredicateResult),
    (p = fun fuel v => (optionalOperator onNull base fuel v).map g) ∧
      (g onNull).success = satisfiedByNull

variable {t : FieldType} {arg : Argument} {f : RestrictionFunction}

/-! ## What is accepted for an optional field -/

section Accepted

variable {α : Type} {x y : Except RestrictionError α} {p : α} {c : Prop} [Decidable c]

@[simp] lemma invalidPredicate_ne_ok : (invalidPredicate : Except RestrictionError α) ≠ .ok p := by
  simp [invalidPredicate]

lemma ite_invalidPredicate : (if c then x else invalidPredicate) = .ok p ↔ c ∧ x = .ok p := by
  split_ifs with hc <;> simp [hc]

lemma ite_error {e : RestrictionError} : (if c then x else .error e) = .ok p ↔ c ∧ x = .ok p := by
  split_ifs with hc <;> simp [hc]

end Accepted

/-- The functors of `eq`, `has_all` and `has_none` for an optional. -/
def OptionalFunctor (p : Functor (.optional t) Bool) : Prop :=
  ∃ base : Functor t Bool, p = optionalOperator nullRejection base

variable {u : ScalarType} {a : List Scalar} {p : Functor t Bool}
    {q : Test t} {test : Int → Bool}

lemma predicateEqScalar_optional {a : Scalar} {p : Functor (.optional t) Bool}
    (h : predicateEqScalar u a (.optional t) = .ok p) : OptionalFunctor p := by
  cases t with
  | scalar => exact (exists_of_map_ok (ite_invalidPredicate.1 h).2).imp fun _ => And.right
  | _ => simp [predicateEqScalar] at h

lemma predicateEqSet_optional {p : Functor (.optional t) Bool}
    (h : predicateEqSet u a (.optional t) = .ok p) : OptionalFunctor p := by
  cases t with
  | flatSet e =>
    cases e with
    | scalar => exact (exists_of_map_ok (ite_invalidPredicate.1 h).2).imp fun _ => And.right
    | _ => simp [predicateEqSet] at h
  | _ => simp [predicateEqSet] at h

lemma predicateEq_optional {p : Functor (.optional t) Bool} (harg : arg ≠ .void)
    (h : predicateEq (.optional t) arg = .ok p) : OptionalFunctor p := by
  cases arg with
  | void => exact absurd rfl harg
  | scalar => exact predicateEqScalar_optional (ite_error.1 h).2
  | flatSet => exact predicateEqSet_optional (ite_error.1 h).2
  | _ => simp [predicateEq] at h

lemma withSet_eq_ok {q : ScalarType → List Scalar → Test t}
    (h : withSet q arg = .ok p) : ∃ u a, arg = .flatSet u a ∧ q u a = .ok p := by
  cases arg with
  | flatSet u a => exact ⟨u, a, rfl, (ite_error.1 h).2⟩
  | _ => simp [withSet] at h

lemma embedArgument_eq_ok {p : Predicate t} (h : embedArgument q = .ok p) :
    ∃ functor, q = .ok functor ∧ p = fun fuel v => (functor fuel v).map verdict := by
  exact exists_of_map_ok h

lemma negated_eq_ok (h : negated q = .ok p) :
    ∃ base, q = .ok base ∧ p = fun fuel v => (base fuel v).map fun b => !b := by
  exact exists_of_map_ok h

lemma predicateInequality_optional {p : Functor (.optional t) Bool}
    (h : predicateInequality test (.optional t) arg = .ok p) :
    ∃ base : Functor t Int, p = fun fuel v =>
      (optionalOperator (PredicateResult.rejection .nullOptional).toInt8 base fuel v).map test := by
  cases arg with
  | scalar =>
    obtain ⟨compare, hc, hp⟩ := bind_eq_ok.1 (ite_error.1 h).2
    obtain ⟨base, -, hcmp⟩ := bind_eq_ok.1 hc
    cases hcmp
    cases hp
    exact ⟨base, rfl⟩
  | _ => simp [predicateInequality] at h

lemma viaOptional_of_inequality {p : Predicate (.optional t)}
    (h : embedArgument (predicateInequality test (.optional t) arg) = .ok p) :
    ViaOptional p (test 0) := by
  obtain ⟨functor, hq, rfl⟩ := embedArgument_eq_ok h
  obtain ⟨base, rfl⟩ := predicateInequality_optional hq
  refine ⟨Int, (PredicateResult.rejection .nullOptional).toInt8, base,
    fun c => verdict (test c), ?_, success_verdict (test 0)⟩
  funext fuel v
  simp [Option.map_map, Function.comp_def]

lemma viaOptional_of_functor {q : Test (.optional t)} {p : Predicate (.optional t)}
    (hq : ∀ functor, q = .ok functor → OptionalFunctor functor)
    (h : embedArgument q = .ok p) : ViaOptional p false := by
  obtain ⟨functor, hf, rfl⟩ := embedArgument_eq_ok h
  obtain ⟨base, rfl⟩ := hq functor hf
  exact ⟨Bool, nullRejection, base, _, rfl, rfl⟩

/-- A function that hides its base is accepted for an optional only as the operator of the class
for `optional`.  The last field of the result says whether an absent optional satisfies it. -/
lemma makePredicate_viaOptional {p : Predicate (.optional t)} (hf : HidesBase f arg)
    (h : makePredicate (.optional t) arg f = .ok p) :
    ViaOptional p (f = .ne ∨ f = .le ∨ f = .ge : Bool) := by
  cases f with
  | eq => exact viaOptional_of_functor (fun _ => predicateEq_optional hf) h
  | ne =>
    obtain ⟨functor, hq, rfl⟩ := embedArgument_eq_ok h
    obtain ⟨equal, heq, rfl⟩ := negated_eq_ok hq
    obtain ⟨base, rfl⟩ := predicateEq_optional hf heq
    refine ⟨Bool, nullRejection, base, fun b => verdict (!b), ?_, rfl⟩
    funext fuel v
    simp [Option.map_map, Function.comp_def]
  | lt | le | gt | ge => exact viaOptional_of_inequality h
  | hasAll | hasNone =>
    refine viaOptional_of_functor (fun _ h => ?_) h
    obtain ⟨u, a, -, h⟩ := withSet_eq_ok h
    exact (exists_of_map_ok h).imp fun _ => And.right
  | _ => exact hf.elim

def Returns (p : Predicate t) : Prop :=
  ∀ fuel v, ∃ r, p fuel v = some r

lemma returns_functor {g : t.Value → PredicateResult} : Returns (t := t) fun _ v => some (g v) :=
  fun _ v => ⟨g v, rfl⟩

lemma predicateInSet_optional {p : Functor (.optional t) Bool}
    (h : predicateInSet u a (.optional t) = .ok p) :
    ∃ g : t.Value → Bool, predicateInSet u a t = .ok (fun _ v => some (g v)) ∧
      predicateNotInSet u a t = .ok (fun _ v => some (!g v)) ∧
      p = fun _ v => some (v.elim false g) := by
  cases t with
  | scalar s =>
    obtain ⟨hs, hp⟩ := ite_invalidPredicate.1 h
    -- a string is comparable with strings only, so it is not taken as a container here
    have hnot : ¬ (s.isContainer && u.isIntegral) := by
      cases s <;> cases u <;> simp_all [ScalarType.isContainer, ScalarType.isIntegral,
        ScalarType.comparable]
    have hin : predicateInSet u a (.scalar s) = .ok fun _ v => some (decide (v ∈ a)) := by
      simp [predicateInSet, hs, functor]
    refine ⟨fun f => decide (f ∈ a), hin, ?_, ?_⟩
    · rw [predicateNotInSet, if_neg hnot, hin]
      rfl
    · cases hp
      funext _ v
      cases v <;> rfl
  | _ => simp [predicateInSet] at h

lemma makePredicate_isIn_optional {p : Predicate (.optional t)} (hf : f = .isIn ∨ f = .notIn)
    (h : makePredicate (.optional t) arg f = .ok p) :
    ∃ q : Predicate t, makePredicate t arg f = .ok q ∧ (∀ fuel x, p fuel (some x) = q fuel x) ∧
      Returns p ∧ ∀ fuel r, p fuel none = some r → r.success = (f = .notIn : Bool) := by
  rcases hf with rfl | rfl
  · obtain ⟨functor, hq, rfl⟩ := embedArgument_eq_ok h
    obtain ⟨u, a, rfl, hset⟩ := withSet_eq_ok hq
    have hu := (ite_error.1 hq).1
    obtain ⟨g, hin, -, rfl⟩ := predicateInSet_optional hset
    refine ⟨fun _ v => some (verdict (g v)), ?_, fun _ _ => rfl, returns_functor, ?_⟩
    · simp only [makePredicate, predicateIn, withSet, hu, if_true, hin, embedArgument, ok_bind]
      rfl
    · rintro fuel r hr
      cases hr
      rfl
  · obtain ⟨functor, hq, rfl⟩ := embedArgument_eq_ok h
    obtain ⟨u, a, rfl, hset⟩ := withSet_eq_ok hq
    have hu := (ite_error.1 hq).1
    have hneg : negated (predicateInSet u a (.optional t)) = .ok functor := by
      cases t <;> exact hset
    obtain ⟨base, hbase, rfl⟩ := negated_eq_ok hneg
    obtain ⟨g, -, hnotIn, rfl⟩ := predicateInSet_optional hbase
    refine ⟨fun _ v => some (verdict (!g v)), ?_, fun _ _ => rfl, returns_functor, ?_⟩
    · simp only [makePredicate, predicateNotIn, withSet, hu, if_true, hnotIn, embedArgument, ok_bind]
      rfl
    · rintro fuel r hr
      cases hr
      rfl

/-! ## Fields that are not optional -/

def FunctorReturns {R : Type} (p : Functor t R) : Prop :=
  ∀ fuel v, ∃ r, p fuel v = some r

def NotOptional (t : FieldType) : Prop :=
  ∀ t', t ≠ .optional t'

variable {c : Prop}

section NotOptional

variable {R : Type} {g : t.Value → R}

lemma functor_returns {p : Functor t R} (h : functor t g = .ok p) : FunctorReturns p := by
  cases h
  exact fun _ v => ⟨g v, rfl⟩

lemma ite_functor_returns [Decidable c] {x y : Except RestrictionError (Functor t R)}
    {p : Functor t R} (h : (if c then x else y) = .ok p) (hx : x = .ok p → FunctorReturns p)
    (hy : y = .ok p → FunctorReturns p) : FunctorReturns p := by
  split_ifs at h
  · exact hx h
  · exact hy h

lemma FunctorReturns.map {p : Functor t R} {S : Type} (h : FunctorReturns p) (g : R → S) :
    FunctorReturns (t := t) fun fuel v => (p fuel v).map g := by
  intro fuel v
  obtain ⟨r, hr⟩ := h fuel v
  exact ⟨g r, by simp [hr]⟩

lemma invalidPredicate_returns {p : Functor t R}
    (h : (invalidPredicate : Except RestrictionError (Functor t R)) = .ok p) : FunctorReturns p :=
  absurd h invalidPredicate_ne_ok

lemma guarded_returns [Decidable c] {p : Functor t R}
    (h : (if c then functor t g else invalidPredicate) = .ok p) : FunctorReturns p :=
  ite_functor_returns h functor_returns invalidPredicate_returns

lemma predicateEqScalar_returns (ht : NotOptional t) {a : Scalar}
    (h : predicateEqScalar u a t = .ok p) : FunctorReturns p := by
  cases t with
  | scalar => exact ite_functor_returns h functor_returns guarded_returns
  | flatSet e | container e => exact guarded_returns h
  | optional t => exact absurd rfl (ht t)
  | _ => exact invalidPredicate_returns h

lemma predicateEqSet_returns (ht : NotOptional t) (h : predicateEqSet u a t = .ok p) :
    FunctorReturns p := by
  cases t with
  | flatSet e =>
    cases e with
    | scalar => exact guarded_returns h
    | _ => exact invalidPredicate_returns h
  | optional t => exact absurd rfl (ht t)
  | _ => exact invalidPredicate_returns h

lemma predicateEqVoid_returns (h : predicateEqVoid t = .ok p) : FunctorReturns p := by
  cases t with
  | optional => exact functor_returns h
  | _ => exact invalidPredicate_returns h

lemma predicateEq_returns (ht : NotOptional t ∨ arg = .void) (h : predicateEq t arg = .ok p) :
    FunctorReturns p := by
  cases arg with
  | void => exact predicateEqVoid_returns h
  | scalar => exact predicateEqScalar_returns (ht.resolve_right (by simp)) (ite_error.1 h).2
  | flatSet => exact predicateEqSet_returns (ht.resolve_right (by simp)) (ite_error.1 h).2
  | _ => simp [predicateEq] at h

lemma predicateInequality_returns (ht : NotOptional t)
    (h : predicateInequality test t arg = .ok p) : FunctorReturns p := by
  cases arg with
  | scalar =>
    obtain ⟨compare, hc, hp⟩ := bind_eq_ok.1 (ite_error.1 h).2
    have hcmp : FunctorReturns compare := by
      cases t with
      | scalar => exact guarded_returns hc
      | optional t => exact absurd rfl (ht t)
      | _ => exact invalidPredicate_returns hc
    cases hp
    exact hcmp.map test
  | _ => simp [predicateInequality] at h

lemma predicateInSet_returns (h : predicateInSet u a t = .ok p) : FunctorReturns p := by
  cases t with
  | scalar => exact ite_functor_returns h functor_returns guarded_returns
  | optional e | flatSet e | container e =>
    cases e with
    | scalar => exact guarded_returns h
    | _ => exact invalidPredicate_returns h
  | _ => exact invalidPredicate_returns h

lemma negated_returns (h : negated q = .ok p) (hq : ∀ base, q = .ok base → FunctorReturns base) :
    FunctorReturns p := by
  obtain ⟨base, hbase, rfl⟩ := negated_eq_ok h
  exact (hq base hbase).map _

lemma predicateNotInSet_returns (h : predicateNotInSet u a t = .ok p) : FunctorReturns p := by
  have hneg : negated (predicateInSet u a t) = .ok p → FunctorReturns p :=
    fun h => negated_returns h fun _ => predicateInSet_returns
  cases t with
  | scalar => exact ite_functor_returns h functor_returns hneg
  | flatSet e | container e =>
    cases e with
    | scalar => exact guarded_returns h
    | _ => exact hneg h
  | _ => exact hneg h

lemma predicateElements_returns {test : List Scalar → List Scalar → Bool}
    (h : predicateElements test u a t = .ok p) : FunctorReturns p := by
  cases t with
  | scalar => exact guarded_returns h
  | flatSet e | container e =>
    cases e with
    | scalar => exact guarded_returns h
    | _ => exact invalidPredicate_returns h
  | _ => exact invalidPredicate_returns h

lemma predicateHasSet_returns (ht : NotOptional t)
    (h : predicateHasAllSet u a t = .ok p ∨ predicateHasNoneSet u a t = .ok p) : FunctorReturns p := by
  cases t with
  | optional t => exact absurd rfl (ht t)
  | _ =>
    refine h.elim predicateElements_returns fun h => ?_
    have h : predicateElements hasNoElement u a _ = .ok p := h
    exact predicateElements_returns h

end NotOptional

lemma makePredicate_returns {p : Predicate t} (ht : NotOptional t ∨ ¬ HidesBase f arg)
    (h : makePredicate t arg f = .ok p) : Returns p := by
  have hembed : ∀ {q : Test t}, embedArgument q = .ok p →
      (∀ functor, q = .ok functor → FunctorReturns functor) → Returns p := by
    intro q hq hret
    obtain ⟨functor, hfun, rfl⟩ := embedArgument_eq_ok hq
    exact (hret functor hfun).map _
  have hset : ∀ {q : ScalarType → List Scalar → Test t},
      embedArgument (withSet q arg) = .ok p →
      (∀ u a functor, q u a = .ok functor → FunctorReturns functor) → Returns p := by
    intro q hq hret
    refine hembed hq fun functor hfun => ?_
    obtain ⟨u, a, -, h⟩ := withSet_eq_ok hfun
    exact hret u a functor h
  cases f with
  | eq => exact hembed h fun _ => predicateEq_returns (ht.imp_right not_not.1)
  | ne =>
    exact hembed h fun _ hq =>
      negated_returns hq fun _ => predicateEq_returns (ht.imp_right not_not.1)
  | lt | le | gt | ge =>
    exact hembed h fun _ => predicateInequality_returns (ht.resolve_right (not_not.2 trivial))
  | isIn => exact hset h fun _ _ _ => predicateInSet_returns
  | notIn => exact hset h fun _ _ _ => predicateNotInSet_returns
  | hasAll =>
    exact hset h fun _ _ _ hq =>
      predicateHasSet_returns (ht.resolve_right (not_not.2 trivial)) (.inl hq)
  | hasNone =>
    exact hset h fun _ _ _ hq =>
      predicateHasSet_returns (ht.resolve_right (not_not.2 trivial)) (.inr hq)
  | _ => simp [makePredicate] at h

/-! ## Lists of restrictions -/

variable {ps : List (Predicate t)} {i : Nat} {field : FieldType} {r : Restriction}
    {rs : List Restriction}

lemma Returns.conjunction (h : ∀ p ∈ ps, Returns p) (i : Nat) : Returns (conjunctionFrom i ps) := by
  intro fuel v
  induction ps generalizing i with
  | nil => exact ⟨.succeed, rfl⟩
  | cons p ps ih =>
    obtain ⟨r, hr⟩ := h p mem_cons_self fuel v
    simp only [conjunctionFrom, hr, bind_eq_bind, bind_some]
    split_ifs
    · exact ih (forall_mem_cons.1 h).2 (i + 1)
    · exact ⟨_, rfl⟩

lemma Returns.disjunction (h : ∀ p ∈ ps, Returns p) (rejections : List PredicateResult) :
    Returns (disjunctionFrom rejections ps) := by
  intro fuel v
  induction ps generalizing rejections with
  | nil => exact ⟨_, rfl⟩
  | cons p ps ih =>
    obtain ⟨r, hr⟩ := h p mem_cons_self fuel v
    simp only [disjunctionFrom, hr, bind_eq_bind, bind_some]
    split_ifs
    · exact ⟨_, rfl⟩
    · exact ih (forall_mem_cons.1 h).2 _

lemma Returns.attribute {p : Predicate t.attributeType} (h : Returns p) :
    Returns (attributeAssertion t p) := by
  intro fuel v
  unfold attributeAssertion
  cases t.attributeValue v with
  | none => exact ⟨_, rfl⟩
  | some x => exact h fuel x

variable {ts : List FieldType} {p : Predicate field} {b : Bool}

lemma Returns.variant {get : FieldType.Alternative ts → Option t.Value} {p : Predicate t}
    (h : Returns p) : Returns (variantPredicate get p) := by
  intro fuel v
  unfold variantPredicate
  cases get v with
  | none => exact ⟨_, rfl⟩
  | some x => exact h fuel x

lemma Returns.optionalVariant {p : Predicate (.variant ts)} (h : Returns p) :
    Returns (optionalVariantPredicate p) := by
  intro fuel v
  cases v with
  | none => exact ⟨_, rfl⟩
  | some x => exact h fuel x

def fieldAt : (t : FieldType) → Nat → Option (Σ f : FieldType, t.Value → f.Value)
  | .object ts, i => memberAt ts i
  | _, _ => none

lemma fieldPredicate_eq_ok {create : (f : FieldType) → Except RestrictionError (Predicate f)}
    {p : Predicate t} (h : fieldPredicate t i create = .ok p) :
    ∃ m q, fieldAt t i = some m ∧ create m.1 = .ok q ∧ p = fun fuel v => q fuel (m.2 v) := by
  cases t with
  | object ts =>
    cases ts with
    | nil => simp [fieldPredicate] at h
    | cons f fs =>
      cases hm : memberAt (f :: fs) i with
      | none => simp [fieldPredicate, hm] at h
      | some m =>
        simp only [fieldPredicate, hm] at h
        obtain ⟨q, hq, rfl⟩ := exists_of_map_ok h
        exact ⟨m, q, hm, hq, rfl⟩
  | _ => simp [fieldPredicate] at h

def variantType : FieldType → Nat → Option FieldType
  | .variant ts, tag => (alternativeAt ts tag).map fun m => m.1
  | .optional (.variant ts), tag => (alternativeAt ts tag).map fun m => m.1
  | _, _ => none

lemma variantAssertion_returns {tag : Nat}
    {create : (v : FieldType) → Except RestrictionError (Predicate v)}
    (h : variantAssertion field tag create = .ok p)
    (hret : ∀ v q, variantType field tag = some v → create v = .ok q → Returns q) : Returns p := by
  cases field with
  | variant ts =>
    cases hm : alternativeAt ts tag with
    | none => simp [variantAssertion, hm] at h
    | some m =>
      simp only [variantAssertion, hm] at h
      obtain ⟨q, hq, rfl⟩ := exists_of_map_ok h
      exact (hret m.1 q (by simp [variantType, hm]) hq).variant
  | optional t =>
    cases t with
    | variant ts =>
      cases hm : alternativeAt ts tag with
      | none => simp [variantAssertion, hm] at h
      | some m =>
        simp only [variantAssertion, hm] at h
        obtain ⟨q, hq, rfl⟩ := exists_of_map_ok h
        exact (hret m.1 q (by simp [variantType, hm]) hq).variant.optionalVariant
    | _ => simp [variantAssertion] at h
  | _ => simp [variantAssertion] at h

mutual

/-- No restriction on an optional field, at any depth, uses a function that hides its base. -/
def Unhidden (t : FieldType) : Restriction → Prop
  | .mk i f argument =>
    if f = .logicalOr then UnhiddenArgument t .logicalOr argument
    else ∀ m, fieldAt t i = some m → UnhiddenArgument m.1 f argument

def UnhiddenAll (t : FieldType) : List Restriction → Prop
  | [] => True
  | r :: rs => Unhidden t r ∧ UnhiddenAll t rs

def UnhiddenBranches (t : FieldType) : List (List Restriction) → Prop
  | [] => True
  | rs :: rss => UnhiddenAll t rs ∧ UnhiddenBranches t rss

/-- The same for a function with its argument, on a field (for a logical OR, on the object). -/
def UnhiddenArgument (field : FieldType) (f : RestrictionFunction) : Argument → Prop
  | .void => True
  | .scalar u a => NotOptional field ∨ ¬ HidesBase f (.scalar u a)
  | .flatSet u a => NotOptional field ∨ ¬ HidesBase f (.flatSet u a)
  | .restrictions rs => UnhiddenAll field.attributeType rs
  | .branches rss => UnhiddenBranches field rss
  | .variantAssert tag rs => ∀ v, variantType field tag = some v → UnhiddenAll v rs

end

lemma leafPredicate_eq_ok (h : leafPredicate field f arg = .ok p) :
    makePredicate field arg f = .ok p := by
  unfold leafPredicate at h
  split_ifs at h
  exact h

lemma makePredicate_restrictions_ne {p : Predicate t}
    (harg : (∃ rs, arg = .restrictions rs) ∨ (∃ rss, arg = .branches rss) ∨
      ∃ tag rs, arg = .variantAssert tag rs) : makePredicate t arg f ≠ .ok p := by
  rcases harg with ⟨rs, rfl⟩ | ⟨rss, rfl⟩ | ⟨tag, rs, rfl⟩ <;> cases f <;>
    simp [makePredicate, predicateEq, predicateNe, predicateLt, predicateLe, predicateGt, predicateGe,
      predicateInequality, predicateIn, predicateNotIn, predicateHasAll, predicateHasNone, withSet,
      negated, embedArgument, bind, Except.bind]

lemma restrictionPredicate_field (hf : f ≠ .logicalOr) : restrictionPredicate t (.mk i f arg) =
      fieldPredicate t i fun field => createPredicateFunction field f arg := by
  rwa [restrictionPredicate]

lemma restrictionPredicate_or {rss : List (List Restriction)} {p : Predicate t}
    (h : restrictionPredicate t (.mk i .logicalOr (.branches rss)) = .ok p) :
    ∃ ps, branchPredicates t rss = .ok ps ∧ p = disjunctionFrom [] ps := by
  rw [restrictionPredicate] at h
  split_ifs at h
  exact exists_of_map_ok h

lemma restrictionPredicates_cons (h : restrictionPredicates t (r :: rs) = .ok ps) :
    ∃ p ps', restrictionPredicate t r = .ok p ∧ restrictionPredicates t rs = .ok ps' ∧
      ps = p :: ps' := by
  obtain ⟨p, hp, h⟩ := bind_eq_ok.1 h
  obtain ⟨ps', hps, h⟩ := bind_eq_ok.1 h
  cases h
  exact ⟨p, ps', hp, hps, rfl⟩

lemma createPredicateFunction_attr
    (h : createPredicateFunction field .attr (.restrictions rs) = .ok p) :
    ∃ ps, restrictionPredicates field.attributeType rs = .ok ps ∧
      p = attributeAssertion field (conjunctionFrom 0 ps) := by
  obtain ⟨_, -, h⟩ := bind_eq_ok.1 h
  exact exists_of_map_ok h

mutual

/-- A restriction that uses no hidden operator returns. -/
theorem restrictionPredicate_returns (t : FieldType) (r : Restriction) {p : Predicate t}
    (h : restrictionPredicate t r = .ok p) (hu : Unhidden t r) : Returns p := by
  cases r with
  | mk i f arg =>
    rw [Unhidden] at hu
    by_cases hf : f = .logicalOr
    · subst hf
      cases arg with
      | branches rss =>
        obtain ⟨ps, hps, rfl⟩ := restrictionPredicate_or h
        exact Returns.disjunction (branchPredicates_returns t rss hps hu) []
      | _ => simp [restrictionPredicate] at h
    · rw [if_neg hf] at hu
      rw [restrictionPredicate_field hf] at h
      obtain ⟨m, q, hm, hq, rfl⟩ := fieldPredicate_eq_ok h
      have hret := createPredicateFunction_returns m.1 f arg hq (hu m hm)
      exact fun fuel v => hret fuel (m.2 v)

theorem restrictionPredicates_returns (t : FieldType) (rs : List Restriction)
    {ps : List (Predicate t)} (h : restrictionPredicates t rs = .ok ps) (hu : UnhiddenAll t rs) :
    ∀ p ∈ ps, Returns p := by
  cases rs with
  | nil =>
    cases h
    exact fun p hp => absurd hp not_mem_nil
  | cons r rs =>
    obtain ⟨q, qs, hq, hqs, rfl⟩ := restrictionPredicates_cons h
    intro p hp
    rcases mem_cons.1 hp with rfl | hp
    · exact restrictionPredicate_returns t r hq hu.1
    · exact restrictionPredicates_returns t rs hqs hu.2 p hp

theorem branchPredicates_returns (t : FieldType) (rss : List (List Restriction))
    {ps : List (Predicate t)} (h : branchPredicates t rss = .ok ps) (hu : UnhiddenBranches t rss) :
    ∀ p ∈ ps, Returns p := by
  cases rss with
  | nil =>
    cases h
    exact fun p hp => absurd hp not_mem_nil
  | cons rs rss =>
    obtain ⟨_, -, h⟩ := bind_eq_ok.1 h
    obtain ⟨qs, hqs, h⟩ := bind_eq_ok.1 h
    obtain ⟨rest, hrest, h⟩ := bind_eq_ok.1 h
    cases h
    intro p hp
    rcases mem_cons.1 hp with rfl | hp
    · exact Returns.conjunction (restrictionPredicates_returns t rs hqs hu.1) 0
    · exact branchPredicates_returns t rss hrest hu.2 p hp

theorem createPredicateFunction_returns (field : FieldType) (f : RestrictionFunction)
    (arg : Argument) {p : Predicate field} (h : createPredicateFunction field f arg = .ok p)
    (hu : UnhiddenArgument field f arg) : Returns p := by
  cases arg with
  | void =>
    have h := leafPredicate_eq_ok h
    cases f with
    | eq | ne => exact makePredicate_returns (.inr (by simp [HidesBase])) h
    | _ => simp [makePredicate, predicateLt, predicateLe, predicateGt, predicateGe,
        predicateInequality, predicateIn, predicateNotIn, predicateHasAll, predicateHasNone, withSet,
        embedArgument, bind, Except.bind] at h
  | scalar u a | flatSet u a => exact makePredicate_returns hu (leafPredicate_eq_ok h)
  | restrictions rs =>
    by_cases hf : f = .attr
    · subst hf
      obtain ⟨ps, hps, rfl⟩ := createPredicateFunction_attr h
      exact (Returns.conjunction (restrictionPredicates_returns _ rs hps hu) 0).attribute
    · rw [createPredicateFunction, if_neg hf] at h
      split_ifs at h
      exact absurd h (makePredicate_restrictions_ne (.inl ⟨rs, rfl⟩))
  | branches rss =>
    exact absurd (leafPredicate_eq_ok h) (makePredicate_restrictions_ne (.inr (.inl ⟨rss, rfl⟩)))
  | variantAssert tag rs =>
    rw [createPredicateFunction] at h
    split_ifs at h with hattr hvar
    · refine variantAssertion_returns h ?_
      intro v q hv hq
      obtain ⟨ps, hps, rfl⟩ := exists_of_map_ok hq
      exact Returns.conjunction (restrictionPredicates_returns v rs hps (hu v hv)) 0
    · exact absurd h (makePredicate_restrictions_ne (.inr (.inr ⟨tag, rs, rfl⟩)))

end

lemma restrictionsToPredicate_eq_ok {allowEmpty : Bool} {p : Predicate t}
    (h : restrictionsToPredicate t rs allowEmpty = .ok p) :
    ∃ ps, restrictionPredicates t rs = .ok ps ∧ p = conjunctionFrom 0 ps := by
  obtain ⟨_, -, h⟩ := bind_eq_ok.1 h
  exact exists_of_map_ok h

/-! ## Present optionals -/

def Compares (f : RestrictionFunction) : Prop :=
  f ≠ .attr ∧ f ≠ .logicalOr ∧ f ≠ .variantAssert ∧ f ≠ .unknown

lemma isIn_or_hidesBase (hf : Compares f) (harg : arg ≠ .void) :
    (f = .isIn ∨ f = .notIn) ∨ HidesBase f arg := by
  obtain ⟨h1, h2, h3, h4⟩ := hf
  cases f <;> simp_all [HidesBase]

lemma ViaOptional.some_eq_none {p : Predicate (.optional t)} (h : ViaOptional p b) (fuel : Nat)
    (x : t.Value) : p fuel (some x) = none := by
  obtain ⟨R, onNull, base, g, rfl, -⟩ := h
  simp [optionalOperator_some]

lemma ViaOptional.none_success {p : Predicate (.optional t)} (h : ViaOptional p b) :
    (∃ r, p 1 none = some r) ∧ ∀ fuel r, p fuel none = some r → r.success = b := by
  obtain ⟨R, onNull, base, g, rfl, hb⟩ := h
  refine ⟨⟨g onNull, rfl⟩, ?_⟩
  intro fuel r hr
  cases fuel with
  | zero => cases hr
  | succ =>
    cases hr
    exact hb

lemma createPredicateFunction_compares (hf : Compares f) :
    createPredicateFunction field f arg = makePredicate field arg f := by
  obtain ⟨hattr, -, hvar, -⟩ := hf
  cases arg <;> simp [createPredicateFunction, leafPredicate, hattr, hvar]

/-- Present optionals.  An accepted comparison of an optional field with a value or a set returns on
a present optional, with the result for the contained value, exactly when it is `in` or `not_in`; the
others never return.  Restriction lists that use none of the others on optional fields, at any
depth, return for every operation. -/
theorem present_optional_iff (t : FieldType) :
    (∀ f arg (p : Predicate (.optional t)), Compares f → arg ≠ .void →
      createPredicateFunction (.optional t) f arg = .ok p → ∀ x : t.Value,
        ((∃ fuel r, p fuel (some x) = some r ∧ ∃ q, createPredicateFunction t f arg = .ok q ∧
            q fuel x = some r) ↔ f = .isIn ∨ f = .notIn) ∧
          ((∃ fuel r, p fuel (some x) = some r) ↔ f = .isIn ∨ f = .notIn)) ∧
    (∀ rs allowEmpty (p : Predicate t), restrictionsToPredicate t rs allowEmpty = .ok p →
      UnhiddenAll t rs → ∀ v, ∃ fuel r, p fuel v = some r) := by
  constructor
  · intro f arg p hf harg h x
    have hmake := h
    rw [createPredicateFunction_compares hf] at hmake
    rcases isIn_or_hidesBase hf harg with hin | hhides
    · obtain ⟨q, hq, hsame, hret, -⟩ := makePredicate_isIn_optional hin hmake
      obtain ⟨r, hr⟩ := hret 0 (some x)
      have hcreate : createPredicateFunction t f arg = .ok q := by
        rwa [createPredicateFunction_compares hf]
      exact ⟨iff_of_true ⟨0, r, hr, q, hcreate, (hsame 0 x) ▸ hr⟩ hin, iff_of_true ⟨0, r, hr⟩ hin⟩
    · have hnone := (makePredicate_viaOptional hhides hmake).some_eq_none
      have hnot : ¬ (f = .isIn ∨ f = .notIn) := by
        rintro (rfl | rfl) <;> exact hhides
      have hno : ¬ ∃ fuel r, p fuel (some x) = some r := by
        rintro ⟨fuel, r, hr⟩
        rw [hnone fuel x] at hr
        cases hr
      exact ⟨iff_of_false (fun ⟨fuel, r, hr, _⟩ => hno ⟨fuel, r, hr⟩) hnot, iff_of_false hno hnot⟩
  · intro rs allowEmpty p h hu v
    obtain ⟨ps, hps, rfl⟩ := restrictionsToPredicate_eq_ok h
    exact ⟨0, Returns.conjunction (restrictionPredicates_returns t rs hps hu) 0 0 v⟩

def sevenAndNine : Argument :=
  .flatSet (.id .account) [.number 7, .number 9]

theorem present_optional_in_returns :
    ∃ p, createPredicateFunction (.optional (.scalar (.id .account))) .isIn sevenAndNine = .ok p ∧
      ∃ fuel r, p fuel (some (.number 7)) = some r :=
  ⟨_, rfl, (((present_optional_iff (.scalar (.id .account))).1 .isIn sevenAndNine _
    (by simp [Compares]) (by simp [sevenAndNine]) rfl (.number 7)).2).2 (.inl rfl)⟩

def optionalAccountOperation : FieldType :=
  .object [.optional (.scalar (.id .account))]

def accountIsSeven : Restriction :=
  .mk 0 .eq (.scalar (.id .account) (.number 7))

/-- The restriction is accepted.  On an operation whose optional account is 7 it runs forever, and
on the contained account it would have been satisfied. -/
theorem present_optional_eq_never_returns :
    ∃ p, restrictionsToPredicate optionalAccountOperation [accountIsSeven] true = .ok p ∧
      (∀ fuel, p fuel (some (.number 7), ()) = none) ∧
      ∃ q, createPredicateFunction (.scalar (.id .account)) .eq
          (.scalar (.id .account) (.number 7)) = .ok q ∧ q 0 (.number 7) = some .succeed := by
  refine ⟨_, rfl, ?_, _, rfl, rfl⟩
  intro fuel
  change (Option.map verdict (optionalOperator nullRejection _ fuel (some _)) >>= _) = none
  rw [optionalOperator_some]
  rfl

/-! ## Absent optionals -/

/-- The functions of which a rejection is expected for an absent optional. -/
def ExpectsValue (f : RestrictionFunction) : Prop :=
  f = .lt ∨ f = .le ∨ f = .gt ∨ f = .ge ∨ f = .eq ∨ f = .isIn ∨ f = .hasAll ∨ f = .hasNone

lemma ExpectsValue.compares (hf : ExpectsValue f) : Compares f := by
  rcases hf with rfl | rfl | rfl | rfl | rfl | rfl | rfl | rfl <;> simp [Compares]

/-- An accepted restriction of this kind is satisfied by an absent optional exactly when it is `le`
or `ge`. -/
lemma absent_optional_success {p : Predicate (.optional field)} (hf : ExpectsValue f)
    (harg : arg ≠ .void) (h : createPredicateFunction (.optional field) f arg = .ok p) :
    (∃ r, p 1 none = some r) ∧
      ∀ fuel r, p fuel none = some r → (r.success = true ↔ f = .le ∨ f = .ge) := by
  rw [createPredicateFunction_compares hf.compares] at h
  rcases isIn_or_hidesBase hf.compares harg with hin | hhides
  · obtain ⟨q, -, -, hret, hnull⟩ := makePredicate_isIn_optional hin h
    refine ⟨hret 1 none, ?_⟩
    intro fuel r hr
    rw [hnull fuel r hr]
    rcases hin with rfl | rfl
    · simp
    · simp [ExpectsValue] at hf
  · obtain ⟨hret, hnull⟩ := (makePredicate_viaOptional hhides h).none_success
    refine ⟨hret, ?_⟩
    intro fuel r hr
    rw [hnull fuel r hr]
    rcases hf with rfl | rfl | rfl | rfl | rfl | rfl | rfl | rfl <;> simp

/-- A restriction refers to an absent optional with a function that rejects it, itself or inside
attribute assertions. -/
inductive Blocked : (t : FieldType) → t.Value → Restriction → Prop where
  | absent {t : FieldType} {v : t.Value} {i : Nat} {f : RestrictionFunction} {arg : Argument}
      {field : FieldType} {get : t.Value → (optional field).Value}
      (hm : fieldAt t i = some ⟨.optional field, get⟩) (hv : get v = none)
      (hf : ExpectsValue f) (hle : f ≠ .le) (hge : f ≠ .ge) (harg : arg ≠ .void) :
      Blocked t v (.mk i f arg)
  | attr {t : FieldType} {v : t.Value} {i : Nat} {rs : List Restriction} {r : Restriction}
      {field : FieldType} {get : t.Value → field.Value} {x : field.attributeType.Value}
      (hm : fieldAt t i = some ⟨field, get⟩) (hx : field.attributeValue (get v) = some x)
      (hr : r ∈ rs) (hb : Blocked field.attributeType x r) :
      Blocked t v (.mk i .attr (.restrictions rs))

/-- The predicate does not accept the value: it rejects it or does not return. -/
def Refuses (p : Predicate t) (v : t.Value) : Prop :=
  ∀ fuel r, p fuel v = some r → r.success = false

lemma mem_restrictionPredicates (h : restrictionPredicates t rs = .ok ps) (hr : r ∈ rs) :
    ∃ p ∈ ps, restrictionPredicate t r = .ok p := by
  induction rs generalizing ps with
  | nil => cases hr
  | cons a rs ih =>
    obtain ⟨q, qs, hq, hqs, rfl⟩ := restrictionPredicates_cons h
    rcases mem_cons.1 hr with rfl | hr
    · exact ⟨q, mem_cons_self, hq⟩
    · obtain ⟨p, hp, hpr⟩ := ih hqs hr
      exact ⟨p, mem_cons_of_mem _ hp, hpr⟩

variable {v : t.Value}

lemma Refuses.conjunction {p : Predicate t} (hp : p ∈ ps) (h : Refuses p v) (i : Nat) :
    Refuses (conjunctionFrom i ps) v := by
  intro fuel r hr
  induction ps generalizing i with
  | nil => cases hp
  | cons q ps ih =>
    rw [conjunctionFrom, bind_eq_bind, bind_eq_some_iff] at hr
    obtain ⟨result, hre, hr⟩ := hr
    split_ifs at hr with hsuc
    · rcases mem_cons.1 hp with rfl | hp
      · rw [h fuel result hre] at hsuc
        cases hsuc
      · exact ih hp (i + 1) hr
    · cases hr
      simpa using hsuc

lemma Blocked.refuses (hb : Blocked t v r) {p : Predicate t} (h : restrictionPredicate t r = .ok p) :
    Refuses p v := by
  induction hb with
  | absent hm hv hf hle hge harg =>
    rw [restrictionPredicate_field hf.compares.2.1] at h
    obtain ⟨m, q, hm', hq, rfl⟩ := fieldPredicate_eq_ok h
    rw [hm, some_inj] at hm'
    subst hm'
    intro fuel r hr
    dsimp only at hr
    rw [hv] at hr
    have hsuc := (absent_optional_success hf harg hq).2 fuel r hr
    simpa [hle, hge] using hsuc
  | attr hm hx hr hb ih =>
    obtain ⟨m, q, hm', hq, rfl⟩ := fieldPredicate_eq_ok h
    rw [hm, some_inj] at hm'
    subst hm'
    obtain ⟨ps, hps, rfl⟩ := createPredicateFunction_attr hq
    obtain ⟨p, hp, hrp⟩ := mem_restrictionPredicates hps hr
    intro fuel r hres
    dsimp only [attributeAssertion] at hres
    rw [hx] at hres
    exact Refuses.conjunction hp (ih hrp) 0 fuel r hres

/-- Absent optionals.  An accepted restriction of an absent optional field by `lt`, `le`, `gt`, `ge`,
`eq` with a value, `in`, `has_all` or `has_none` returns, and is satisfied exactly when it is `le` or
`ge`.  A conjunction that contains one of the others, at any nesting of attribute assertions, does
not accept the operation. -/
theorem absent_optional_satisfied_iff (t : FieldType) :
    (∀ f arg (p : Predicate (.optional t)), ExpectsValue f → arg ≠ .void →
      createPredicateFunction (.optional t) f arg = .ok p → (∃ r, p 1 none = some r) ∧
          ∀ fuel r, p fuel none = some r → (r.success = true ↔ f = .le ∨ f = .ge)) ∧
    (∀ rs allowEmpty (p : Predicate t), restrictionsToPredicate t rs allowEmpty = .ok p →
      ∀ v, ∀ r ∈ rs, Blocked t v r → Refuses p v) := by
  constructor
  · intro f arg p hf harg h
    exact absent_optional_success hf harg h
  · intro rs allowEmpty p h v r hr hb
    obtain ⟨ps, hps, rfl⟩ := restrictionsToPredicate_eq_ok h
    obtain ⟨q, hq, hrq⟩ := mem_restrictionPredicates hps hr
    exact Refuses.conjunction hq (hb.refuses hrq) 0

def accountBelowSeven : Restriction :=
  .mk 0 .lt (.scalar (.id .account) (.number 7))

theorem absent_optional_lt_refused :
    ∃ p, restrictionsToPredicate optionalAccountOperation [accountBelowSeven] true = .ok p ∧
      Refuses p (none, ()) :=
  ⟨_, rfl, (absent_optional_satisfied_iff optionalAccountOperation).2 [accountBelowSeven] true _ rfl
    (none, ()) accountBelowSeven mem_cons_self
    (.absent rfl rfl (.inl rfl) (by decide) (by decide) (by simp))⟩

def accountAtMostSeven : Restriction :=
  .mk 0 .le (.scalar (.id .account) (.number 7))

/-- The restriction is accepted, and an operation without the account satisfies it. -/
theorem absent_optional_le_satisfied :
    ∃ p, restrictionsToPredicate optionalAccountOperation [accountAtMostSeven] true = .ok p ∧
      p 1 (none, ()) = some .succeed :=
  ⟨_, rfl, rfl⟩

end Graphene.Protocol
