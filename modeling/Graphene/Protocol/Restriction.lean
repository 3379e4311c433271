import Mathlib.Data.List.Basic
import Mathlib.Data.Int.Order.Basic

/-!
# Restrictions of custom authorities

A custom authority restricts the operations it may authorise.  A restriction names a
member of the operation, a function and an argument; some functions take restrictions
as their argument, so restrictions nest.  They are checked against the reflected type
of the operation, which is data here: `FieldType` describes it, and `FieldType.Value`
is the type of its values.
-/

namespace Graphene.Protocol

/-! ## The types of fields -/

/-- The object id types that may be the argument of a restriction. -/
inductive IdKind where
  | account | asset | forceSettlement | committeeMember | witness | limitOrder | callOrder | custom
  | proposal | withdrawPermission | vestingBalance | worker | balance
deriving DecidableEq

/-- An integer type other than `bool`, or `fc::safe` of one. -/
structure IntType where
  signed : Bool
  bits : Nat
  safe : Bool := false
deriving DecidableEq

/-- The types whose values are compared as a whole. -/
inductive ScalarType where
  | bool
  | integer (t : IntType)
  | string
  | timePointSec
  | publicKey
  | sha256
  | id (kind : IdKind)
deriving DecidableEq

namespace ScalarType

def int64 : ScalarType := .integer { signed := true, bits := 64 }

/-- `is_integral`, which does not hold of `bool`. -/
def isIntegral : ScalarType → Bool
  | integer _ => true
  | _ => false

/-- `is_container`: a string has a size and characters. -/
def isContainer : ScalarType → Bool
  | string => true
  | _ => false

/-- `comparable_types`: the same type, or two integral ones. -/
def comparable (t u : ScalarType) : Bool :=
  t = u || (t.isIntegral && u.isIntegral)

/-- The argument types: of the integers only `int64_t`. -/
def isArgument : ScalarType → Bool
  | integer t => integer t = int64
  | _ => true

/-- `comparable_types_list`: valid for magnitude comparisons. -/
def isOrdered : ScalarType → Bool
  | bool | publicKey | sha256 => false
  | _ => true

end ScalarType

inductive Scalar where
  | bool (b : Bool)
  | number (n : Int)
  | text (s : String)
deriving DecidableEq

namespace Scalar

/-- `operator<` of two values of one type. -/
def less : Scalar → Scalar → Bool
  | bool b, bool c => !b && c
  | number m, number n => m < n
  | text s, text t => s < t
  | _, _ => false

def equalsSize (size : Nat) : Scalar → Bool
  | number n => (size : Int) = n
  | _ => false

def characters : Scalar → List Scalar
  | text s => s.toUTF8.toList.map fun c => number c.toNat
  | _ => []

end Scalar

inductive FieldType where
  | scalar (t : ScalarType)
  | optional (t : FieldType)
  | flatSet (element : FieldType)
  | container (element : FieldType)
  | object (members : List FieldType)
  | extension (t : FieldType)
  /-- `static_variant` -/
  | variant (types : List FieldType)
  | other

namespace FieldType

mutual

@[reducible] def Value : FieldType → Type
  | scalar _ => Scalar
  | optional t => Option t.Value
  | flatSet t => List t.Value
  | container t => List t.Value
  | object ts => Values ts
  | extension t => t.Value
  | variant ts => Alternative ts
  | other => Unit

@[reducible] def Values : List FieldType → Type
  | [] => Unit
  | t :: ts => t.Value × Values ts

@[reducible] def Alternative : List FieldType → Type
  | [] => Empty
  | t :: ts => t.Value ⊕ Alternative ts

end

def memberAt : (ts : List FieldType) → Nat → Option (Σ f : FieldType, Values ts → f.Value)
  | [], _ => none
  | t :: _, 0 => some ⟨t, fun v => v.1⟩
  | _ :: ts, i + 1 => (memberAt ts i).map fun m => ⟨m.1, fun v => m.2 v.2⟩

/-- A type of a variant by its tag; the value is there when the variant has this tag. -/
def alternativeAt : (ts : List FieldType) → Nat →
    Option (Σ f : FieldType, Alternative ts → Option f.Value)
  | [], _ => none
  | t :: _, 0 => some ⟨t, fun v => v.elim some fun _ => none⟩
  | _ :: ts, i + 1 => (alternativeAt ts i).map fun m => ⟨m.1, fun v => v.elim (fun _ => none) m.2⟩

def attributeType : FieldType → FieldType
  | optional t => t
  | extension t => t
  | t => t

def attributeValue : (t : FieldType) → t.Value → Option t.attributeType.Value
  | optional _, v => v
  | extension _, v => some v
  | scalar _, v => some v
  | flatSet _, v => some v
  | container _, v => some v
  | object _, v => some v
  | variant _, v => some v
  | other, v => some v

end FieldType

/-- `restriction::function_type`; a number that is none of them is `unknown`. -/
inductive RestrictionFunction where
  | eq | ne | lt | le | gt | ge
  | isIn | notIn | hasAll | hasNone
  | attr | logicalOr | variantAssert
  | unknown
deriving DecidableEq

mutual

inductive Restriction where
  | mk (memberIndex : Nat) (restrictionType : RestrictionFunction) (argument : Argument)

/-- `restriction::argument_type`. -/
inductive Argument where
  | void
  | scalar (t : ScalarType) (a : Scalar)
  | flatSet (t : ScalarType) (elements : List Scalar)
  | restrictions (rs : List Restriction)
  | branches (rss : List (List Restriction))
  | variantAssert (tag : Nat) (rs : List Restriction)

end

namespace Restriction

mutual

def restrictionCount : Restriction → Nat
  | .mk _ _ argument => 1 + argumentCount argument

def argumentCount : Argument → Nat
  | .restrictions rs => restrictionCounts rs
  | .branches rss => branchCounts rss
  | .variantAssert _ rs => restrictionCounts rs
  | .void => 0
  | .scalar _ _ => 0
  | .flatSet _ _ => 0

def restrictionCounts : List Restriction → Nat
  | [] => 0
  | r :: rs => restrictionCount r + restrictionCounts rs

def branchCounts : List (List Restriction) → Nat
  | [] => 0
  | rs :: rss => restrictionCounts rs + branchCounts rss

end

end Restriction

inductive RejectionReason where
  | predicateWasFalse
  | nullOptional
  | incorrectVariantType
deriving DecidableEq

mutual

inductive PredicateResult where
  | mk (success : Bool) (rejectionPath : List RejectionIndicator)

inductive RejectionIndicator where
  | index (i : Nat)
  | branches (results : List PredicateResult)
  | reason (r : RejectionReason)

end

variable (r : PredicateResult)

namespace PredicateResult

/-- `operator bool`. -/
def success : PredicateResult → Bool
  | mk s _ => s

def rejectionPath : PredicateResult → List RejectionIndicator
  | mk _ p => p

def succeed : PredicateResult := mk true []

def rejection (r : RejectionReason) : PredicateResult := mk false [.reason r]

def rejectionOf (branches : List PredicateResult) : PredicateResult := mk false [.branches branches]

/-- `rejection_path.push_back`. -/
def pushIndex (r : PredicateResult) (i : Nat) : PredicateResult :=
  mk r.success (r.rejectionPath ++ [.index i])

/-- The conversion to an 8-bit comparison result, through `operator bool`. -/
def toInt8 (r : PredicateResult) : Int :=
  if r.success then 1 else 0

@[simp] lemma success_pushIndex (i : Nat) : (r.pushIndex i).success = r.success := rfl

mutual

def reversePath : PredicateResult → PredicateResult
  | mk true path => mk true path
  | mk false path => mk false (reverseIndicators path).reverse

def reverseIndicator : RejectionIndicator → RejectionIndicator
  | .branches results => .branches (reversePaths results)
  | .index i => .index i
  | .reason r => .reason r

def reverseIndicators : List RejectionIndicator → List RejectionIndicator
  | [] => []
  | x :: xs => reverseIndicator x :: reverseIndicators xs

def reversePaths : List PredicateResult → List PredicateResult
  | [] => []
  | r :: rs => reversePath r :: reversePaths rs

end

end PredicateResult

end Graphene.Protocol
