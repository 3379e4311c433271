import Graphene.Lib.BoundedFraction
import Graphene.Lib.Outcome
import Graphene.Protocol.Types

/-!
# Assets and prices

`asset` and `price`: amounts of an asset, prices as pairs of amounts, and the products of
an amount and a price, rounded down or up, and of a price and a ratio.  Prices are
compared by cross multiplication.

The code multiplies in 128 bits.  With amounts below 2^63 and ratios of at most 32000 to
1000 no intermediate value leaves that range, so the model computes with integers and
rationals.
-/

namespace Graphene.Protocol

open Lib

/-- The assertions of the arithmetic on assets and prices. -/
inductive AssetError where
  /-- "Base amount should be positive" -/
  | baseNotPositive
  /-- "Quote amount should be positive" -/
  | quoteNotPositive
  /-- "Base asset ID and quote asset ID should be different" -/
  | sameAsset
  | divisorNotPositive
  /-- the result of a product is greater than `GRAPHENE_MAX_SHARE_SUPPLY` -/
  | resultTooLarge
  /-- "invalid asset * price" -/
  | invalidProduct
  | ratioNotPositive
  | assetMismatch
deriving DecidableEq

structure Asset where
  amount : Int
  assetId : AssetId
deriving DecidableEq

structure Price where
  base : Asset
  quote : Asset
deriving DecidableEq

namespace Asset

def withSame {α : Type} (f : Int → Int → α) (a b : Asset) : Except AssetError α := do
  check (a.assetId = b.assetId) .assetMismatch
  return f a.amount b.amount

/-- `operator +`. -/
def add (a b : Asset) : Except AssetError Asset :=
  withSame (fun x y => ⟨x + y, a.assetId⟩) a b

/-- `operator -`. -/
def sub (a b : Asset) : Except AssetError Asset :=
  withSame (fun x y => ⟨x - y, a.assetId⟩) a b

/-- `operator <`. -/
def less (a b : Asset) : Except AssetError Bool :=
  withSame (fun x y => decide (x < y)) a b

/-- Unary `operator -`. -/
def neg (a : Asset) : Asset :=
  ⟨-a.amount, a.assetId⟩

/-- `std::min`. -/
def least (a b : Asset) : Except AssetError Asset := do
  let smaller ← b.less a
  return if smaller then b else a

/-- `operator / ( base, quote )`. -/
def div (base quote : Asset) : Except AssetError Price := do
  check (base.assetId ≠ quote.assetId) .sameAsset
  return ⟨base, quote⟩

/-- The product of an amount and the fraction `num / den`, by the given division. -/
def scale (divide : Int → Int → Int) (amount num den : Int) (assetId : AssetId) :
    Except AssetError Asset := do
  check (0 < den) .divisorNotPositive
  check (divide (amount * num) den ≤ grapheneMaxShareSupply) .resultTooLarge
  return ⟨divide (amount * num) den, assetId⟩

/-- A product with a price, in the direction given by the asset. -/
def mulBy (divide : Int → Int → Int) (a : Asset) (b : Price) : Except AssetError Asset :=
  if a.assetId = b.base.assetId then
    scale divide a.amount b.quote.amount b.base.amount b.quote.assetId
  else if a.assetId = b.quote.assetId then
    scale divide a.amount b.base.amount b.quote.amount b.base.assetId
  else .error .invalidProduct

/-- `operator * ( asset, price )`: multiply and round down.  The amount is not negative: for a negative
one the unsigned product is too large, and the source throws. -/
def mul : Asset → Price → Except AssetError Asset :=
  mulBy fun n d => n / d

def multiplyAndRoundUp : Asset → Price → Except AssetError Asset :=
  mulBy fun n d => (n + d - 1) / d

end Asset

namespace Price

variable (p : Price)

/-- `operator ~`. -/
def inv : Price :=
  ⟨p.quote, p.base⟩

/-- `operator <`. -/
def Less (a b : Price) : Prop :=
  a.base.assetId < b.base.assetId ∨ a.base.assetId = b.base.assetId ∧
    (a.quote.assetId < b.quote.assetId ∨ a.quote.assetId = b.quote.assetId ∧
      b.quote.amount * a.base.amount < a.quote.amount * b.base.amount)

instance (a b : Price) : Decidable (Less a b) := inferInstanceAs (Decidable (_ ∨ _))

/-- `operator ==`. -/
def Same (a b : Price) : Prop :=
  a.base.assetId = b.base.assetId ∧ a.quote.assetId = b.quote.assetId ∧
    b.quote.amount * a.base.amount = a.quote.amount * b.base.amount

instance (a b : Price) : Decidable (Same a b) := inferInstanceAs (Decidable (_ ∧ _))

/-- `std::max`. -/
def greater (a b : Price) : Price :=
  if a.Less b then b else a

/-- `price::max( base, quote )`. -/
def highest (base quote : AssetId) : Price :=
  ⟨⟨grapheneMaxShareSupply, base⟩, ⟨1, quote⟩⟩

/-- `price::min( base, quote )`. -/
def lowest (base quote : AssetId) : Price :=
  ⟨⟨1, base⟩, ⟨grapheneMaxShareSupply, quote⟩⟩

def IsNull : Prop :=
  p.base.assetId = 0 ∧ p.quote.assetId = 0

instance (p : Price) : Decidable p.IsNull := inferInstanceAs (Decidable (_ ∧ _))

def validate : Except AssetError Unit := do
  check (0 < p.base.amount) .baseNotPositive
  check (0 < p.quote.amount) .quoteNotPositive
  check (p.base.assetId ≠ p.quote.assetId) .sameAsset

def value : ℚ :=
  p.base.amount / p.quote.amount

def withValue (x : ℚ) : Price :=
  ⟨⟨x.num, p.base.assetId⟩, ⟨x.den, p.quote.assetId⟩⟩

/-- The product went to the wrong side of the price because it could not be represented. -/
def Flipped (r : ℚ) (np : Price) : Prop :=
  if r.den < r.num then np.Less p else p.Less np

instance (p : Price) (r : ℚ) (np : Price) : Decidable (Flipped p r np) :=
  inferInstanceAs (Decidable (ite _ _ _))

/-- `operator * ( price, ratio )`. -/
def mulRatio (r : ℚ) : Except AssetError Price := do
  p.validate
  check (0 < r) .ratioNotPositive
  if r.num = r.den then return p
  let (cp, inexact) := approximate grapheneMaxShareSupply (p.value * r)
  let np := p.withValue cp
  let np := if inexact ∧ p.Flipped r np then p else np
  np.validate
  return np

/-- `operator / ( price, ratio )`. -/
def divRatio (r : ℚ) : Except AssetError Price :=
  p.mulRatio r⁻¹

end Price
end Graphene.Protocol
