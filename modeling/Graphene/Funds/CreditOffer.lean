import Graphene.Funds.SametFund

/-!
# Credit offers

`credit_offer_object`, `credit_deal_object` and `credit_deal_summary_object` with their evaluators, and
`update_credit_offers_and_deals`, which runs at the end of every block.

Times and fee rates are 32-bit numbers.  What the source computes in 128 bits is reduced modulo
`2 ^ 128` where a product may be larger.  A division by zero ends the process.
-/

namespace Graphene.Funds

open Lib Protocol Accounts

def grapheneMaxCreditOfferSecs : Nat := 380 * 86400

def grapheneMaxCreditDealSecs : Nat := 380 * 86400

inductive CreditError where
  | invalidOperation
  | unknownObject
  /-- "Auto-disable time should be in the future", and not too late -/
  | badAutoDisableTime
  | unauthorizedAsset
  /-- "The account is not the owner of the credit offer" -/
  | notOwner
  /-- "Can only delete a credit offer when the unpaid amount is zero" -/
  | hasUnpaidAmount
  /-- "Asset type mismatch" -/
  | assetMismatch
  /-- "Should leave some funds in the credit offer when updating" -/
  | leavesNothing
  /-- "Insufficient balance in the credit offer" -/
  | insufficientOffer
  /-- the defensive checks of the balances of an offer -/
  | badOfferBalance
  /-- "The credit offer is not enabled" -/
  | notEnabled
  /-- "Borrowing amount should not be less than minimum deal amount" -/
  | dealTooSmall
  /-- "The maximum accceptable fee rate is lower than offered" -/
  | feeRateTooHigh
  /-- "The minimum accceptable duration is longer than offered" -/
  | durationTooShort
  /-- "Collateral asset type is not acceptable by the credit offer" -/
  | unacceptableCollateral
  /-- "Insufficient collateral provided" -/
  | insufficientCollateral
  /-- "Account is not in acceptable borrowers" -/
  | unacceptableBorrower
  /-- "Unable to borrow", more than allowed -/
  | exceedsAllowance
  | badRepayTime
  | notBorrower
  /-- "Repay amount should not be greater than unpaid amount" -/
  | repaysTooMuch
  /-- "Insuffient credit fee" -/
  | insufficientCreditFee
  | internalError
  /-- "The automatic repayment type does not change" -/
  | sameAutoRepay
  | insufficientBalance
  /-- the required collateral can not be computed -/
  | arithmetic (e : AssetError)
  | divisionByZero
  | outOfRounds
deriving DecidableEq

/-- `credit_deal_auto_repayment_type`; that a value is one of these is asserted by `validate`. -/
inductive AutoRepayment where
  | noAutoRepayment
  | onlyFullRepayment
  | allowPartialRepayment
deriving DecidableEq

abbrev AcceptableCollateral := Keyed (Prod.fst : AssetId × Price → AssetId)

abbrev AcceptableBorrowers := Tally AccountId

structure CreditOfferCreate where
  ownerAccount : AccountId
  assetType : AssetId
  balance : Int
  feeRate : UInt32
  maxDurationSeconds : UInt32
  minDealAmount : Int
  enabled : Bool
  autoDisableTime : UInt32
  acceptableCollateral : AcceptableCollateral
  acceptableBorrowers : AcceptableBorrowers

structure CreditOfferDelete where
  ownerAccount : AccountId
  offerId : Nat

structure CreditOfferUpdate where
  ownerAccount : AccountId
  offerId : Nat
  deltaAmount : Option Asset
  feeRate : Option UInt32
  maxDurationSeconds : Option UInt32
  minDealAmount : Option Int
  enabled : Option Bool
  autoDisableTime : Option UInt32
  acceptableCollateral : Option AcceptableCollateral
  acceptableBorrowers : Option AcceptableBorrowers

structure CreditOfferAccept where
  borrower : AccountId
  offerId : Nat
  borrowAmount : Asset
  collateral : Asset
  maxFeeRate : UInt32
  minDurationSeconds : UInt32
  autoRepay : Option AutoRepayment

structure CreditDealRepay where
  account : AccountId
  dealId : Nat
  repayAmount : Asset
  creditFee : Asset

structure CreditDealUpdate where
  account : AccountId
  dealId : Nat
  autoRepay : AutoRepayment

inductive CreditOperation where
  | create (op : CreditOfferCreate)
  | delete (op : CreditOfferDelete)
  | update (op : CreditOfferUpdate)
  | accept (op : CreditOfferAccept)
  | repay (op : CreditDealRepay)
  | updateDeal (op : CreditDealUpdate)

structure CreditOffer where
  id : Nat
  ownerAccount : AccountId
  assetType : AssetId
  totalBalance : Int
  currentBalance : Int
  feeRate : UInt32
  maxDurationSeconds : UInt32
  minDealAmount : Int
  enabled : Bool
  autoDisableTime : UInt32
  acceptableCollateral : AcceptableCollateral
  acceptableBorrowers : AcceptableBorrowers

structure CreditDeal where
  id : Nat
  borrower : AccountId
  offerId : Nat
  offerOwner : AccountId
  debtAsset : AssetId
  debtAmount : Int
  collateralAsset : AssetId
  collateralAmount : Int
  feeRate : UInt32
  latestRepayTime : UInt32
  autoRepay : AutoRepayment

def CreditDeal.pair (d : CreditDeal) : Nat × AccountId :=
  (d.offerId, d.borrower)

structure CreditDealSummary where
  borrower : AccountId
  offerId : Nat
  offerOwner : AccountId
  debtAsset : AssetId
  totalDebtAmount : Int

/-- The key of the index `by_offer_borrower`. -/
def CreditDealSummary.pair (x : CreditDealSummary) : Nat × AccountId :=
  (x.offerId, x.borrower)

structure CreditRules where
  assetExists : AssetId → Bool
  accountExists : AccountId → Bool
  isAuthorizedAsset : AccountId → AssetId → Bool

structure CreditState where
  rules : CreditRules
  headTime : UInt32
  balances : Balances
  offers : Store CreditOffer.id
  deals : Store CreditDeal.id
  summaries : Keyed CreditDealSummary.pair

/-! ## `validate` -/

/-- `price::validate( true )`. -/
def isValidPrice (p : Price) : Bool :=
  p.validate.isOk && p.base.amount ≤ grapheneMaxShareSupply && p.quote.amount ≤ grapheneMaxShareSupply

def isValidCollateral (assetType : AssetId) (m : AcceptableCollateral) : Bool :=
  !m.objects.isEmpty && m.objects.all fun x =>
    x.2.base.assetId = assetType && x.2.quote.assetId = x.1 && isValidPrice x.2

def isValidBorrowers (m : AcceptableBorrowers) : Bool :=
  m.objects.all fun x => 0 ≤ x.2 && x.2 ≤ grapheneMaxShareSupply

def isValidDuration (d : UInt32) : Bool :=
  d.toNat ≤ grapheneMaxCreditDealSecs

def isValidMinDeal (x : Int) : Bool :=
  0 ≤ x && x ≤ grapheneMaxShareSupply

def firstBaseAsset (m : AcceptableCollateral) : AssetId :=
  (m.objects.head?.map fun x => x.2.base.assetId).getD 0

def CreditOfferCreate.isValid (op : CreditOfferCreate) : Bool :=
  0 < op.balance && isValidDuration op.maxDurationSeconds && isValidMinDeal op.minDealAmount &&
    isValidCollateral op.assetType op.acceptableCollateral && isValidBorrowers op.acceptableBorrowers

def CreditOfferUpdate.isValid (op : CreditOfferUpdate) : Bool :=
  op.deltaAmount.all (·.amount ≠ 0) && op.maxDurationSeconds.all isValidDuration &&
    op.minDealAmount.all isValidMinDeal &&
    op.acceptableCollateral.all (fun m => isValidCollateral (firstBaseAsset m) m) &&
    op.acceptableBorrowers.all isValidBorrowers &&
    (op.deltaAmount.isSome || op.feeRate.isSome || op.maxDurationSeconds.isSome ||
      op.minDealAmount.isSome || op.enabled.isSome || op.autoDisableTime.isSome ||
      op.acceptableCollateral.isSome || op.acceptableBorrowers.isSome)

def CreditOfferAccept.isValid (op : CreditOfferAccept) : Bool :=
  0 < op.borrowAmount.amount && 0 < op.collateral.amount

def CreditDealRepay.isValid (op : CreditDealRepay) : Bool :=
  0 < op.repayAmount.amount && 0 ≤ op.creditFee.amount &&
    op.repayAmount.assetId = op.creditFee.assetId

def divide (a b : Int) : Except CreditError Int := do
  check (b ≠ 0) .divisionByZero
  return a / b

/-- `static_cast<int64_t>`. -/
def toInt64 (x : Int) : Int :=
  x.bmod (2 ^ 64)

namespace CreditState

variable (s : CreditState)

def offer (id : Nat) : Except CreditError CreditOffer :=
  match s.offers.find id with
  | some o => .ok o
  | none => .error .unknownObject

def deal (id : Nat) : Except CreditError CreditDeal :=
  match s.deals.find id with
  | some d => .ok d
  | none => .error .unknownObject

/-- `adjust_balance`. -/
def adjust (account : AccountId) (delta : Asset) : Except CreditError CreditState := do
  let balances ← adjustBalance .insufficientBalance s.balances account delta
  return { s with balances := balances }

def checkAuthorized (account : AccountId) (a : AssetId) : Except CreditError Unit := do
  check (s.rules.assetExists a) .unknownObject
  check (s.rules.isAuthorizedAsset account a) .unauthorizedAsset

/-- An offer that is enabled will be disabled, but not too late. -/
def isGoodDisableTime (enabled : Bool) (t : UInt32) : Bool :=
  !enabled || (s.headTime < t && t.toNat - s.headTime.toNat ≤ grapheneMaxCreditOfferSecs)

/-! ## Offers -/

def newOffer (op : CreditOfferCreate) : CreditOffer where
  id := s.offers.nextId
  ownerAccount := op.ownerAccount
  assetType := op.assetType
  totalBalance := op.balance
  currentBalance := op.balance
  feeRate := op.feeRate
  maxDurationSeconds := op.maxDurationSeconds
  minDealAmount := op.minDealAmount
  enabled := op.enabled
  autoDisableTime := op.autoDisableTime
  acceptableCollateral := op.acceptableCollateral
  acceptableBorrowers := op.acceptableBorrowers

def creditOfferCreate (op : CreditOfferCreate) : Except CreditError CreditState := do
  check op.isValid .invalidOperation
  check (s.isGoodDisableTime op.enabled op.autoDisableTime) .badAutoDisableTime
  check (op.acceptableCollateral.objects.all fun x => s.rules.assetExists x.1) .unknownObject
  check (op.acceptableBorrowers.objects.all fun x => s.rules.accountExists x.1) .unknownObject
  s.checkAuthorized op.ownerAccount op.assetType
  let s ← s.adjust op.ownerAccount ⟨-op.balance, op.assetType⟩
  return { s with offers := s.offers.write (s.newOffer op) }

def creditOfferDelete (op : CreditOfferDelete) : Except CreditError CreditState := do
  let offer ← s.offer op.offerId
  check (offer.ownerAccount = op.ownerAccount) .notOwner
  check (offer.totalBalance = offer.currentBalance) .hasUnpaidAmount
  let s ← s.adjust op.ownerAccount ⟨offer.currentBalance, offer.assetType⟩
  return { s with offers := s.offers.remove op.offerId }

/-- The assertions on the change of the balance by an update. -/
def checkOfferDelta (account : AccountId) (offer : CreditOffer) (delta : Asset) :
    Except CreditError Unit := do
  check (offer.assetType = delta.assetId) .assetMismatch
  if 0 < delta.amount then s.checkAuthorized account offer.assetType
  else do
    check (-delta.amount < offer.totalBalance) .leavesNothing
    check (-delta.amount ≤ offer.currentBalance) .insufficientOffer

variable (offer : CreditOffer)

def updatedOffer (op : CreditOfferUpdate) : CreditOffer :=
  { offer with
    totalBalance := offer.totalBalance + (op.deltaAmount.map Asset.amount).getD 0
    currentBalance := offer.currentBalance + (op.deltaAmount.map Asset.amount).getD 0
    feeRate := op.feeRate.getD offer.feeRate
    maxDurationSeconds := op.maxDurationSeconds.getD offer.maxDurationSeconds
    minDealAmount := op.minDealAmount.getD offer.minDealAmount
    enabled := op.enabled.getD offer.enabled
    autoDisableTime := op.autoDisableTime.getD offer.autoDisableTime
    acceptableCollateral := op.acceptableCollateral.getD offer.acceptableCollateral
    acceptableBorrowers := op.acceptableBorrowers.getD offer.acceptableBorrowers }

def checkOfferBalance : Except CreditError Unit :=
  check (0 < offer.totalBalance && 0 ≤ offer.currentBalance &&
    offer.currentBalance ≤ offer.totalBalance) .badOfferBalance

def creditOfferUpdate (op : CreditOfferUpdate) : Except CreditError CreditState := do
  check op.isValid .invalidOperation
  let offer ← s.offer op.offerId
  check (offer.ownerAccount = op.ownerAccount) .notOwner
  (op.deltaAmount.map (s.checkOfferDelta op.ownerAccount offer)).getD (.ok ())
  let new := updatedOffer offer op
  check (s.isGoodDisableTime new.enabled new.autoDisableTime) .badAutoDisableTime
  check (op.acceptableCollateral.all fun m => m.objects.all fun x =>
    s.rules.assetExists x.1 && offer.assetType = x.2.base.assetId) .assetMismatch
  check (op.acceptableBorrowers.all fun m =>
    m.objects.all fun x => s.rules.accountExists x.1) .unknownObject
  let s ← (op.deltaAmount.map fun delta => s.adjust op.ownerAccount delta.neg).getD (.ok s)
  let s := { s with offers := s.offers.write new }
  checkOfferBalance new
  check (s.isGoodDisableTime new.enabled new.autoDisableTime) .badAutoDisableTime
  return s

/-! ## Deals -/

def repayTime (maxDuration : UInt32) : UInt32 :=
  if maxDuration.toNat ≤ timePointSecMaximum - s.headTime.toNat then s.headTime + maxDuration
  else UInt32.ofNat timePointSecMaximum

def requiredCollateral (amount : Asset) (collateralAsset : AssetId) :
    Except CreditError Asset :=
  match offer.acceptableCollateral.find collateralAsset with
  | none => .error .unacceptableCollateral
  | some x => (amount.multiplyAndRoundUp x.2).mapError .arithmetic

def checkBorrower (borrower : AccountId) (amount : Int) :
    Except CreditError Unit :=
  if offer.acceptableBorrowers.objects.isEmpty then .ok ()
  else
    match offer.acceptableBorrowers.find borrower with
    | none => .error .unacceptableBorrower
    | some x => check (amount ≤ x.2) .exceedsAllowance

/-- `total_debt_amount` of the summary, zero if there is none. -/
def summed (k : Nat × AccountId) : Int :=
  (s.summaries.find k).elim 0 CreditDealSummary.totalDebtAmount

def newDeal (op : CreditOfferAccept) : CreditDeal where
  id := s.deals.nextId
  borrower := op.borrower
  offerId := op.offerId
  offerOwner := offer.ownerAccount
  debtAsset := offer.assetType
  debtAmount := op.borrowAmount.amount
  collateralAsset := op.collateral.assetId
  collateralAmount := op.collateral.amount
  feeRate := offer.feeRate
  latestRepayTime := s.repayTime offer.maxDurationSeconds
  autoRepay := op.autoRepay.getD .noAutoRepayment

/-- The summary after a new deal, which may be the first one. -/
def newSummary (op : CreditOfferAccept) : CreditDealSummary :=
  match s.summaries.find (op.offerId, op.borrower) with
  | some x => { x with totalDebtAmount := x.totalDebtAmount + op.borrowAmount.amount }
  | none => ⟨op.borrower, op.offerId, offer.ownerAccount, offer.assetType, op.borrowAmount.amount⟩

def checkAccept (op : CreditOfferAccept) : Except CreditError Unit := do
  check op.isValid .invalidOperation
  check offer.enabled .notEnabled
  check (offer.assetType = op.borrowAmount.assetId) .assetMismatch
  check (op.borrowAmount.amount ≤ offer.currentBalance) .insufficientOffer
  check (offer.minDealAmount ≤ op.borrowAmount.amount) .dealTooSmall
  check (offer.feeRate ≤ op.maxFeeRate) .feeRateTooHigh
  check (op.minDurationSeconds ≤ offer.maxDurationSeconds) .durationTooShort
  s.checkAuthorized op.borrower offer.assetType
  s.checkAuthorized op.borrower op.collateral.assetId
  s.checkAuthorized offer.ownerAccount offer.assetType
  s.checkAuthorized offer.ownerAccount op.collateral.assetId
  let required ← requiredCollateral offer op.borrowAmount op.collateral.assetId
  check (required.amount ≤ op.collateral.amount) .insufficientCollateral
  checkBorrower offer op.borrower (s.summed (op.offerId, op.borrower) + op.borrowAmount.amount)

def creditOfferAccept (op : CreditOfferAccept) : Except CreditError CreditState := do
  let offer ← s.offer op.offerId
  s.checkAccept offer op
  let s ← s.adjust op.borrower op.collateral.neg
  let s ← s.adjust op.borrower op.borrowAmount
  let lent := { offer with currentBalance := offer.currentBalance - op.borrowAmount.amount }
  let new := s.newDeal offer op
  checkOfferBalance lent
  check (s.headTime < new.latestRepayTime) .badRepayTime
  check (new.latestRepayTime.toNat - s.headTime.toNat ≤ grapheneMaxCreditDealSecs) .badRepayTime
  return { s with
    offers := s.offers.write lent
    deals := s.deals.write new
    summaries := s.summaries.put (s.newSummary offer op) }

/-- The debt of a summary is reduced; a summary without debt is removed. -/
def reduceSummary (x : CreditDealSummary) (amount : Int) : Keyed CreditDealSummary.pair :=
  if x.totalDebtAmount = amount then s.summaries.erase x.pair
  else s.summaries.put { x with totalDebtAmount := x.totalDebtAmount - amount }

variable (deal : CreditDeal)

/-- The collateral that a repayment releases, and the deals after it. -/
def repayDeal (amount : Int) : Except CreditError (Int × Store CreditDeal.id) :=
  if deal.debtAmount = amount then .ok (deal.collateralAmount, s.deals.remove deal.id)
  else do
    let amountToRelease ← divide (amount * deal.collateralAmount) deal.debtAmount
    check (amountToRelease < deal.collateralAmount) .internalError
    let released := toInt64 amountToRelease
    return (released, s.deals.write
      { deal with
        debtAmount := deal.debtAmount - amount
        collateralAmount := deal.collateralAmount - released })

def checkRepay (op : CreditDealRepay) : Except CreditError Unit := do
  check op.isValid .invalidOperation
  check (deal.borrower = op.account) .notBorrower
  check (deal.debtAsset = op.repayAmount.assetId) .assetMismatch
  check (op.repayAmount.amount ≤ deal.debtAmount) .repaysTooMuch
  check (FundState.requiredFee op.repayAmount.amount deal.feeRate.toNat ≤ op.creditFee.amount)
    .insufficientCreditFee
  s.checkAuthorized op.account deal.debtAsset
  s.checkAuthorized deal.offerOwner deal.debtAsset

def creditDealRepay (op : CreditDealRepay) : Except CreditError CreditState := do
  let deal ← s.deal op.dealId
  s.checkRepay deal op
  let totalAmount := op.repayAmount.amount + op.creditFee.amount
  let s ← s.adjust op.account ⟨-totalAmount, op.repayAmount.assetId⟩
  let offer ← s.offer deal.offerId
  let repaid :=
    { offer with
      totalBalance := offer.totalBalance + op.creditFee.amount
      currentBalance := offer.currentBalance + totalAmount }
  check (repaid.currentBalance ≤ repaid.totalBalance) .badOfferBalance
  match s.summaries.find (deal.offerId, op.account) with
  | none => .error .internalError
  | some x => do
    let (released, deals) ← s.repayDeal deal op.repayAmount.amount
    let s :=
      { s with
        offers := s.offers.write repaid
        summaries := s.reduceSummary x op.repayAmount.amount
        deals := deals }
    s.adjust op.account ⟨released, deal.collateralAsset⟩

def creditDealUpdate (op : CreditDealUpdate) : Except CreditError CreditState := do
  let deal ← s.deal op.dealId
  check (deal.borrower = op.account) .notBorrower
  check (deal.autoRepay ≠ op.autoRepay) .sameAutoRepay
  return { s with deals := s.deals.write { deal with autoRepay := op.autoRepay } }

def perform (s : CreditState) : CreditOperation → Except CreditError CreditState
  | .create op => s.creditOfferCreate op
  | .delete op => s.creditOfferDelete op
  | .update op => s.creditOfferUpdate op
  | .accept op => s.creditOfferAccept op
  | .repay op => s.creditDealRepay op
  | .updateDeal op => s.creditDealUpdate op

/-! ## `update_credit_offers_and_deals` -/

def disableOffers : CreditState :=
  (s.offers.objects.filter fun o => o.enabled && o.autoDisableTime ≤ s.headTime).foldl
    (fun s o => { s with offers := s.offers.write { o with enabled := false } }) s

/-- The order of the index `by_latest_repay_time`. -/
def RepaidBefore (d e : CreditDeal) : Prop :=
  d.latestRepayTime.toNat < e.latestRepayTime.toNat ∨
    d.latestRepayTime.toNat = e.latestRepayTime.toNat ∧ d.id ≤ e.id

instance : DecidableRel RepaidBefore := fun _ _ => inferInstanceAs (Decidable (_ ∨ _))

def byLatestRepayTime : List CreditDeal :=
  s.deals.objects.insertionSort RepaidBefore

def firstDue : Option CreditDeal :=
  s.byLatestRepayTime.head?.filter fun d => d.latestRepayTime ≤ s.headTime

def totalRequired : Int :=
  FundState.requiredFee deal.debtAmount deal.feeRate.toNat + deal.debtAmount

/-- `GRAPHENE_FEE_RATE_DENOM + deal.fee_rate`, a sum of two 32-bit numbers. -/
def feeDivisor (feeRate : UInt32) : UInt32 :=
  1000000 + feeRate

/-- The debt that a balance can repay together with the fee, and the fee: no more than what
corresponds to a whole amount of collateral. -/
def partialRepayment (balance : Int) : Except CreditError (Int × Int) := do
  let debtToRepay ← divide (balance * grapheneFeeRateDenom) (feeDivisor deal.feeRate).toNat
  let collateralToRelease ←
    divide (debtToRepay * deal.collateralAmount % 2 ^ 128) deal.debtAmount
  let debtToRepay ←
    divide ((collateralToRelease * deal.debtAmount + deal.collateralAmount - 1) % 2 ^ 128)
      deal.collateralAmount
  let feeToPay :=
    (debtToRepay * deal.feeRate.toNat + grapheneFeeRateDenom - 1) % 2 ^ 128 / grapheneFeeRateDenom
  return (toInt64 debtToRepay, toInt64 feeToPay)

def repaymentAmounts : Except CreditError (Int × Int) :=
  let balance := getBalance s.balances deal.borrower deal.debtAsset
  if deal.autoRepay = .onlyFullRepayment ∨ totalRequired deal ≤ balance then
    .ok (deal.debtAmount, toInt64 (FundState.requiredFee deal.debtAmount deal.feeRate.toNat))
  else partialRepayment deal balance

/-- `try_push_virtual_operation` for an automatic repayment: it may fail, which changes nothing. -/
def tryRepay (op : CreditDealRepay) : Except CreditError CreditState :=
  match (s.checkAuthorized op.account 0 >>= fun _ => s.creditDealRepay op) with
  | .ok s' => .ok s'
  | .error .divisionByZero => .error .divisionByZero
  | .error _ => .ok s

/-- The summaries after a deal is past due; the source logs an error if the summary is missing. -/
def expireSummary : Keyed CreditDealSummary.pair :=
  match s.summaries.find (deal.offerId, deal.borrower) with
  | none => s.summaries
  | some x => s.reduceSummary x deal.debtAmount

/-- A deal is past due: the owner of the offer gets the collateral. -/
def expireDeal : Except CreditError CreditState := do
  let offer ← s.offer deal.offerId
  let unpaid := { offer with totalBalance := offer.totalBalance - deal.debtAmount }
  let s := { s with offers := s.offers.write unpaid, summaries := s.expireSummary deal }
  let s ← s.adjust deal.offerOwner ⟨deal.collateralAmount, deal.collateralAsset⟩
  return { s with deals := s.deals.remove deal.id }

/-- What is left of a deal after an automatic repayment is past due. -/
def expireRest (id : Nat) : Except CreditError CreditState :=
  match s.deals.find id with
  | none => .ok s
  | some deal => s.expireDeal deal

def processDeal : Except CreditError CreditState :=
  if deal.autoRepay = .noAutoRepayment then s.expireDeal deal
  else do
    let (repayAmount, creditFee) ← s.repaymentAmounts deal
    let s ← s.tryRepay
      ⟨deal.borrower, deal.id, ⟨repayAmount, deal.debtAsset⟩, ⟨creditFee, deal.debtAsset⟩⟩
    s.expireRest deal.id

def processDeals : Nat → CreditState → Except CreditError CreditState
  | rounds, s =>
    match s.firstDue with
    | none => .ok s
    | some deal =>
      match rounds with
      | 0 => .error .outOfRounds
      | rounds + 1 => s.processDeal deal >>= processDeals rounds

def updateCreditOffersAndDeals : Except CreditError CreditState :=
  processDeals s.deals.objects.length s.disableOffers

end CreditState

end Graphene.Funds
