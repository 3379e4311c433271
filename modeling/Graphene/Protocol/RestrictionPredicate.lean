import Graphene.Protocol.Restriction

/-!
# From restrictions to predicates

`restrictions_to_predicate` explores restrictions together with the type they apply to
and makes a predicate, or throws when a restriction does not fit its type.  The
predicate functors are classes, and which `operator()` a call runs is decided by C++:

* a class for `optional` fields derives from the class for the contained type and
  declares an `operator()` of its own;
* a name declared in a class hides the same name of its bases, unless a
  using-declaration brings it in;
* `fc::optional<T>` is implicitly constructible from `T`.

A call may therefore not return.  Predicates take fuel, and `none` says that the fuel
did not suffice.
-/

namespace Graphene.Protocol

open PredicateResult

/-- The exceptions of `restrictions_to_predicate`. -/
inductive RestrictionError where
  /-- "Empty attribute assertions and logical OR branches are not permitted" -/
  | emptyRestrictions
  /-- "Restriction argument for logical OR function type must be list of restriction lists." -/
  | logicalOrArgument
  /-- "Logical OR must have at least two branches" -/
  | logicalOrBranches
  /-- "Invalid member index ${I} for object ${O}" -/
  | invalidMemberIndex (i : Nat)
  /-- "Invalid restriction references member of non-object type: ${O}" -/
  | nonObjectType
  | argumentType
  /-- "Invalid types for predicate" -/
  | invalidTypes
  /-- "Argument type for attribute assertion must be restriction list" -/
  | attributeArgument
  /-- "Argument type for attribute assertion must be pair of variant tag and restriction list" -/
  | variantArgument
  /-- "Invalid variant assertion on non-variant field" -/
  | nonVariantField
  | invalidVariantTag (tag : Nat)
  /-- "Invalid function type on restriction" -/
  | invalidFunction
deriving DecidableEq

variable (t : FieldType)

/-- `object_restriction_predicate`. -/
abbrev Predicate := Nat → t.Value → Option PredicateResult

abbrev Functor (R : Type) := Nat → t.Value → Option R

/-- A test of the field; building it throws where the types do not fit. -/
abbrev Test := Except RestrictionError (Functor t Bool)

/-- The call operators of a class for `optional<Field>`: the one it declares, which takes an
`optional<Field>`, and the one of its base, which takes a `Field`. -/
inductive CallOperator where
  | declared
  | inherited
deriving DecidableEq

/-- Name lookup in the class: what it declares hides what it inherits, unless a using-declaration
brings that in. -/
def lookupCallOperator (usingBase : Bool) : List CallOperator :=
  if usingBase then [.declared, .inherited] else [.declared]

/-- The user-defined conversions that an argument of type `Field` needs.  The parameter
`optional<Field>` is reached through `optional( U&& u )`. -/
def CallOperator.conversions : CallOperator → Nat
  | .declared => 1
  | .inherited => 0

/-- Overload resolution for an argument of type `Field`: the fewest conversions. -/
def resolveCall (candidates : List CallOperator) : Option CallOperator :=
  (candidates.find? (·.conversions = 0)).or (candidates.find? (·.conversions = 1))

/-- `operator()` of the classes for `optional`: the value `onNull` for an absent optional, and
`return (*this)(*f, a)` for a present one.  The classes have no using-declaration. -/
def optionalOperator {α R : Type} (onNull : R) (base : Nat → α → Option R) :
    Nat → Option α → Option R
  | 0, _ => none
  | _ + 1, none => some onNull
  | fuel + 1, some f =>
    match resolveCall (lookupCallOperator false) with
    | some .inherited => base fuel f
    -- the argument is converted back to an optional
    | some .declared => optionalOperator onNull base fuel (some f)
    | none => none

/-- What `predicate_result::Rejection(null_optional)` becomes as a `bool`. -/
def nullRejection : Bool :=
  (rejection .nullOptional).success

/-! ## The functors -/

section Functors

variable {R : Type}

/-- `predicate_invalid`, which throws when it is constructed. -/
def invalidPredicate {α : Type} : Except RestrictionError α :=
  .error .invalidTypes

def functor (t : FieldType) (f : t.Value → R) : Except RestrictionError (Functor t R) :=
  .ok fun _ v => some (f v)

def predicateEqScalar (u : ScalarType) (a : Scalar) : (t : FieldType) → Test t
  | .scalar s =>
    if s.comparable u then functor (.scalar s) fun f => f = a
    else if s.isContainer && u.isIntegral then
      functor (.scalar s) fun f => a.equalsSize f.characters.length
    else invalidPredicate
  | .flatSet e =>
    if u.isIntegral then functor (.flatSet e) fun f => a.equalsSize f.length
    else invalidPredicate
  | .container e =>
    if u.isIntegral then functor (.container e) fun f => a.equalsSize f.length
    else invalidPredicate
  | .optional (.scalar s) =>
    if s.comparable u then do
      let base ← predicateEqScalar u a (.scalar s)
      pure (optionalOperator nullRejection base)
    else invalidPredicate
  | _ => invalidPredicate

def predicateEqSet (u : ScalarType) (a : List Scalar) : (t : FieldType) → Test t
  | .flatSet (.scalar s) =>
    if s = u then functor (.flatSet (.scalar s)) fun f => f = a else invalidPredicate
  | .optional (.flatSet (.scalar s)) =>
    if s = u then do
      let base ← predicateEqSet u a (.flatSet (.scalar s))
      pure (optionalOperator nullRejection base)
    else invalidPredicate
  | _ => invalidPredicate

/-- `predicate_eq` with `void_t`: the optional is null. -/
def predicateEqVoid : (t : FieldType) → Test t
  | .optional t => functor (.optional t) fun f => f.isNone
  | _ => invalidPredicate

def predicateEq : Argument → Test t
  | .void => predicateEqVoid t
  | .scalar u a => if u.isArgument then predicateEqScalar u a t else .error .argumentType
  | .flatSet u a => if u.isArgument then predicateEqSet u a t else .error .argumentType
  | _ => .error .argumentType

/-- The negator around `predicate_eq` and `predicate_in`. -/
def negated {t : FieldType} (p : Test t) : Test t := do
  let base ← p
  pure fun fuel f => (base fuel f).map fun b => !b

def predicateNe (arg : Argument) : Test t :=
  negated (predicateEq t arg)

def compareScalars (f a : Scalar) : Int :=
  if f.less a then -1 else if a.less f then 1 else 0

def predicateCompareScalar (u : ScalarType) (a : Scalar) :
    (t : FieldType) → Except RestrictionError (Functor t Int)
  | .scalar s =>
    if s.comparable u then functor (.scalar s) fun f => compareScalars f a else invalidPredicate
  | .optional t => do
    let base ← predicateCompareScalar u a t
    pure (optionalOperator (rejection .nullOptional).toInt8 base)
  | _ => invalidPredicate

/-- The four inequalities: `test` compares the result with zero. -/
def predicateInequality (test : Int → Bool) (t : FieldType) : Argument → Test t
  | .scalar u a =>
    if u.isArgument && u.isOrdered then do
      let base ← predicateCompareScalar u a t
      pure fun fuel f => (base fuel f).map test
    else .error .argumentType
  | _ => .error .argumentType

def predicateLt : (t : FieldType) → Argument → Test t :=
  predicateInequality fun c => c < 0

def predicateLe : (t : FieldType) → Argument → Test t :=
  predicateInequality fun c => c ≤ 0

def predicateGt : (t : FieldType) → Argument → Test t :=
  predicateInequality fun c => 0 < c

def predicateGe : (t : FieldType) → Argument → Test t :=
  predicateInequality fun c => 0 ≤ c

def withSet {t : FieldType} (p : ScalarType → List Scalar → Test t) : Argument → Test t
  | .flatSet u a => if u.isArgument then p u a else .error .argumentType
  | _ => .error .argumentType

def predicateInSet (u : ScalarType) (a : List Scalar) : (t : FieldType) → Test t
  | .scalar s =>
    if s.comparable u then functor (.scalar s) fun f => f ∈ a
    else if s.isContainer && u.isIntegral then
      functor (.scalar s) fun f => f.characters.all (· ∈ a)
    else invalidPredicate
  | .optional (.scalar s) =>
    if s.comparable u then
      -- calls `count` and no other operator
      functor (.optional (.scalar s)) fun f =>
        match f with
        | none => nullRejection
        | some f => decide (f ∈ a)
    else invalidPredicate
  | .flatSet (.scalar s) =>
    if s.comparable u then functor (.flatSet (.scalar s)) fun f => f.all (· ∈ a)
    else invalidPredicate
  | .container (.scalar s) =>
    if s.comparable u then functor (.container (.scalar s)) fun f => f.all (· ∈ a)
    else invalidPredicate
  | _ => invalidPredicate

def predicateIn : Argument → Test t :=
  withSet fun u a => predicateInSet u a t

/-- `predicate_not_in`: for containers no element is in the set, otherwise a negation. -/
def predicateNotInSet (u : ScalarType) (a : List Scalar) : (t : FieldType) → Test t
  | .scalar s =>
    if s.isContainer && u.isIntegral then
      functor (.scalar s) fun f => f.characters.all (· ∉ a)
    else negated (predicateInSet u a (.scalar s))
  | .flatSet (.scalar s) =>
    if s.comparable u then functor (.flatSet (.scalar s)) fun f => f.all (· ∉ a)
    else invalidPredicate
  | .container (.scalar s) =>
    if s.comparable u then functor (.container (.scalar s)) fun f => f.all (· ∉ a)
    else invalidPredicate
  | t => negated (predicateInSet u a t)

def predicateNotIn : Argument → Test t :=
  withSet fun u a => predicateNotInSet u a t

def hasAllElements (a f : List Scalar) : Bool :=
  if f.length < a.length then false else a.all (· ∈ f)

def hasNoElement (a f : List Scalar) : Bool :=
  f.all (· ∉ a)

/-- `predicate_has_all` and `predicate_has_none` of fields that are containers. -/
def predicateElements (test : List Scalar → List Scalar → Bool) (u : ScalarType) (a : List Scalar) :
    (t : FieldType) → Test t
  | .scalar s =>
    if s.isContainer && u.isIntegral then functor (.scalar s) fun f => test a f.characters
    else invalidPredicate
  | .flatSet (.scalar s) =>
    if s.comparable u then functor (.flatSet (.scalar s)) (test a) else invalidPredicate
  | .container (.scalar s) =>
    if s.comparable u then functor (.container (.scalar s)) (test a) else invalidPredicate
  | _ => invalidPredicate

def predicateHasAllSet (u : ScalarType) (a : List Scalar) : (t : FieldType) → Test t
  | .optional t => do
    let base ← predicateHasAllSet u a t
    pure (optionalOperator nullRejection base)
  | t => predicateElements hasAllElements u a t

def predicateHasAll : Argument → Test t :=
  withSet fun u a => predicateHasAllSet u a t

/-- `predicate_has_none`.  The class for `optional` derives from `predicate_has_all`. -/
def predicateHasNoneSet (u : ScalarType) (a : List Scalar) : (t : FieldType) → Test t
  | .optional t => do
    let base ← predicateHasAllSet u a t
    pure (optionalOperator nullRejection base)
  | t => predicateElements hasNoElement u a t

def predicateHasNone : Argument → Test t :=
  withSet fun u a => predicateHasNoneSet u a t

def verdict (holds : Bool) : PredicateResult :=
  if holds then .succeed else .rejection .predicateWasFalse

@[simp] lemma success_verdict (holds : Bool) : (verdict holds).success = holds := by
  cases holds <;> rfl

def embedArgument {t : FieldType} (p : Test t) : Except RestrictionError (Predicate t) := do
  let functor ← p
  pure fun fuel f => (functor fuel f).map verdict

/-- `make_predicate` for the functions that compare a field with the argument. -/
def makePredicate (arg : Argument) : RestrictionFunction → Except RestrictionError (Predicate t)
  | .eq => embedArgument (predicateEq t arg)
  | .ne => embedArgument (predicateNe t arg)
  | .lt => embedArgument (predicateLt t arg)
  | .le => embedArgument (predicateLe t arg)
  | .gt => embedArgument (predicateGt t arg)
  | .ge => embedArgument (predicateGe t arg)
  | .isIn => embedArgument (predicateIn t arg)
  | .notIn => embedArgument (predicateNotIn t arg)
  | .hasAll => embedArgument (predicateHasAll t arg)
  | .hasNone => embedArgument (predicateHasNone t arg)
  | _ => .error .invalidFunction

end Functors

/-! ## Combining predicates -/

/-- The loop of `restrictions_to_predicate`: the first rejection is returned with its index. -/
def conjunctionFrom {t : FieldType} : Nat → List (Predicate t) → Predicate t
  | _, [], _, _ => some .succeed
  | i, p :: ps, fuel, v => do
    let result ← p fuel v
    if result.success then conjunctionFrom (i + 1) ps fuel v
    else some (result.pushIndex i)

/-- The loop of `create_logical_or_predicate`, with the rejections so far. -/
def disjunctionFrom {t : FieldType} : List PredicateResult → List (Predicate t) → Predicate t
  | rejections, [], _, _ => some (.rejectionOf rejections)
  | rejections, p :: ps, fuel, v => do
    let result ← p fuel v
    if result.success then some .succeed
    else disjunctionFrom (rejections ++ [result]) ps fuel v

def attributeAssertion (p : Predicate t.attributeType) : Predicate t :=
  fun fuel v =>
    match t.attributeValue v with
    | none => some (.rejection .nullOptional)
    | some x => p fuel x

def variantPredicate {ts : List FieldType} {f : FieldType}
    (get : FieldType.Alternative ts → Option f.Value) (p : Predicate f) : Predicate (.variant ts) :=
  fun fuel v =>
    match get v with
    | none => some (.rejection .incorrectVariantType)
    | some x => p fuel x

def optionalVariantPredicate {ts : List FieldType} (p : Predicate (.variant ts)) :
    Predicate (.optional (.variant ts)) :=
  fun fuel v =>
    match v with
    | none => some (.rejection .nullOptional)
    | some x => p fuel x

/-- Empty restrictions are allowed at the top and for a variant only. -/
def checkNotEmpty (rs : List Restriction) (allowEmpty : Bool) : Except RestrictionError Unit :=
  if !allowEmpty && rs.isEmpty then .error .emptyRestrictions else .ok ()

/-- `create_field_predicate`, when the predicate of each field is known. -/
def fieldPredicate (i : Nat)
    (create : (f : FieldType) → Except RestrictionError (Predicate f)) :
    Except RestrictionError (Predicate t) :=
  match t with
  | .object [] => .error .nonObjectType
  | .object ts =>
    match FieldType.memberAt ts i with
    | none => .error (.invalidMemberIndex i)
    | some ⟨f, get⟩ => do
      let p ← create f
      pure fun fuel v => p fuel (get v)
  | _ => .error .nonObjectType

/-- `variant_assertion`, when the predicate of each type of the variant is known. -/
def variantAssertion (field : FieldType) (tag : Nat)
    (create : (v : FieldType) → Except RestrictionError (Predicate v)) :
    Except RestrictionError (Predicate field) :=
  match field with
  | .variant ts =>
    match FieldType.alternativeAt ts tag with
    | none => .error (.invalidVariantTag tag)
    | some ⟨v, get⟩ => do
      let p ← create v
      pure (variantPredicate get p)
  | .optional (.variant ts) =>
    match FieldType.alternativeAt ts tag with
    | none => .error (.invalidVariantTag tag)
    | some ⟨v, get⟩ => do
      let p ← create v
      pure (optionalVariantPredicate (variantPredicate get p))
  | _ => .error .nonVariantField

/-- `create_predicate_function` with an argument that is no restriction list of an assertion. -/
def leafPredicate (field : FieldType) (f : RestrictionFunction) (arg : Argument) :
    Except RestrictionError (Predicate field) :=
  if f = .attr then .error .attributeArgument
  else if f = .variantAssert then .error .variantArgument
  else makePredicate field arg f

mutual

/-- A restriction of an object, as `restrictions_to_predicate` treats each of its list. -/
def restrictionPredicate (t : FieldType) : Restriction → Except RestrictionError (Predicate t)
  | .mk _ .logicalOr argument =>
    match argument with
    | .branches rss =>
      if rss.length ≤ 1 then .error .logicalOrBranches
      else do
        let ps ← branchPredicates t rss
        pure (disjunctionFrom [] ps)
    | _ => .error .logicalOrArgument
  | .mk i f argument => fieldPredicate t i fun field => createPredicateFunction field f argument

def restrictionPredicates (t : FieldType) :
    List Restriction → Except RestrictionError (List (Predicate t))
  | [] => .ok []
  | r :: rs => do
    let p ← restrictionPredicate t r
    let ps ← restrictionPredicates t rs
    pure (p :: ps)

def branchPredicates (t : FieldType) :
    List (List Restriction) → Except RestrictionError (List (Predicate t))
  | [] => .ok []
  | rs :: rss => do
    checkNotEmpty rs false
    let ps ← restrictionPredicates t rs
    let rest ← branchPredicates t rss
    pure (conjunctionFrom 0 ps :: rest)

def createPredicateFunction (field : FieldType) (f : RestrictionFunction) :
    Argument → Except RestrictionError (Predicate field)
  | .restrictions rs =>
    if f = .attr then do
      checkNotEmpty rs false
      let ps ← restrictionPredicates field.attributeType rs
      pure (attributeAssertion field (conjunctionFrom 0 ps))
    else if f = .variantAssert then .error .variantArgument
    else makePredicate field (.restrictions rs) f
  | .variantAssert tag rs =>
    if f = .attr then .error .attributeArgument
    else if f = .variantAssert then
      variantAssertion field tag fun v => do
        let ps ← restrictionPredicates v rs
        pure (conjunctionFrom 0 ps)
    else makePredicate field (.variantAssert tag rs) f
  | .void => leafPredicate field f .void
  | .scalar u a => leafPredicate field f (.scalar u a)
  | .flatSet u a => leafPredicate field f (.flatSet u a)
  | .branches rss => leafPredicate field f (.branches rss)

end

def restrictionsToPredicate (rs : List Restriction) (allowEmpty : Bool) :
    Except RestrictionError (Predicate t) := do
  checkNotEmpty rs allowEmpty
  let ps ← restrictionPredicates t rs
  pure (conjunctionFrom 0 ps)

/-- `get_restriction_predicate` of an operation type: the path of a rejection is reversed. -/
def getRestrictionPredicate (rs : List Restriction) : Except RestrictionError (Predicate t) := do
  let p ← restrictionsToPredicate t rs true
  pure fun fuel v => (p fuel v).map reversePath

end Graphene.Protocol
