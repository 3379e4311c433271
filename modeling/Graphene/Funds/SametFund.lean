import Graphene.Accounts.Balance
import Graphene.Lib.Proportion

/-!
# SameT Funds

`samet_fund_object`, the evaluators that create, delete, update, borrow from and repay to a fund, and the
places where debts to funds are checked: the end of a transaction and the end of a proposed transaction.

Operations outside the model, the approval of proposals, fees and the rest of the database are the fields
of `FundRules`, each of which returns exactly what it may change.
-/

namespace Graphene.Funds

open Lib Protocol Accounts

def grapheneFeeRateDenom : Int := 1000000

inductive FundError where
  | invalidOperation
  | unknownObject
  /-- "The account is unauthorized by the asset" -/
  | unauthorizedAsset
  /-- "The account is not the owner of the SameT Fund" -/
  | notOwner
  | hasUnpaidAmount
  | assetMismatch
  /-- "Insufficient balance in the SameT Fund" -/
  | insufficientFund
  /-- "New fee rate should not be the same as the original fee rate" -/
  | sameFeeRate
  /-- "Balance in the SameT Fund should be positive" -/
  | fundNotPositive
  | insufficientBalance
  /-- "Should not borrow more than available" -/
  | borrowedTooMuch
  /-- "Repay amount should not be greater than unpaid amount" -/
  | repaysTooMuch
  /-- "Insuffient fund fee" -/
  | insufficientFundFee
  /-- "Unpaid SameT Fund debt detected" -/
  | unpaidDebtDetected
  /-- "Max undo session nesting depth exceeded!" -/
  | nestedTooDeeply
  | rejected
deriving DecidableEq

structure SametFundCreate where
  ownerAccount : AccountId
  assetType : AssetId
  balance : Int
  feeRate : Nat
deriving DecidableEq

structure SametFundDelete where
  ownerAccount : AccountId
  fundId : Nat
deriving DecidableEq

structure SametFundUpdate where
  ownerAccount : AccountId
  fundId : Nat
  deltaAmount : Option Asset
  newFeeRate : Option Nat
deriving DecidableEq

structure SametFundBorrow where
  borrower : AccountId
  fundId : Nat
  borrowAmount : Asset
deriving DecidableEq

structure SametFundRepay where
  account : AccountId
  fundId : Nat
  repayAmount : Asset
  fundFee : Asset
deriving DecidableEq

inductive FundOperation where
  | create (op : SametFundCreate)
  | delete (op : SametFundDelete)
  | update (op : SametFundUpdate)
  | borrow (op : SametFundBorrow)
  | repay (op : SametFundRepay)

/-- The operations of a transaction; those outside the model are of type `X`, and so are the
approvals that are added to and removed from a proposal. -/
inductive Operation (X : Type) where
  | fund (op : FundOperation)
  | proposalCreate (proposedOps : List (Operation X)) (terms : X)
  | proposalUpdate (proposal : Nat) (approvals : X)
  | proposalDelete (proposal : Nat) (authority : X)
  | other (x : X)

structure SametFund where
  id : Nat
  ownerAccount : AccountId
  assetType : AssetId
  balance : Int
  feeRate : Nat
  unpaidAmount : Int

/-- `proposal_object`, with the operations of the proposed transaction. -/
structure Proposal (X : Type) where
  id : Nat
  operations : List (Operation X)

/-- The database: `rest` is what the model does not look into. -/
structure FundState (X R : Type) where
  balances : Balances
  funds : Store SametFund.id
  proposals : Store (Proposal.id (X := X))
  rest : R
  /-- the fund operations that were performed, the last one first; no function reads it -/
  performed : List FundOperation

/-- The parts of the database and of the evaluators outside the model. -/
structure FundRules (X R : Type) where
  assetExists : R → AssetId → Bool
  isAuthorizedAsset : R → AccountId → AssetId → Bool
  applyOther : X → Balances → R → Option (Balances × R)
  payFee : Operation X → Balances → R → Option (Balances × R)
  /-- the assertions on a new proposal, and its approvals -/
  createProposal : X → Nat → List (Operation X) → R → Option R
  /-- `proposal_update_evaluator`, up to the execution of the proposal -/
  updateApprovals : X → Nat → R → Option R
  /-- there is no review period and `is_authorized_to_execute` -/
  isExecutable : R → Nat → Bool
  /-- `is_authorized_to_execute` -/
  isAuthorizedToExecute : R → Nat → Bool
  /-- the assertion of `proposal_delete_evaluator` -/
  mayDelete : X → Nat → R → Bool
  /-- `fail_reason` -/
  recordFailure : Nat → R → R
  /-- twice the number of active witnesses -/
  maxNestingDepth : R → Nat

def orRejected {α : Type} : Option α → Except FundError α
  | some a => .ok a
  | none => .error .rejected

namespace FundState

variable {X R : Type} (rules : FundRules X R) (s : FundState X R)

def fund (id : Nat) : Except FundError SametFund :=
  match s.funds.find id with
  | some f => .ok f
  | none => .error .unknownObject

def adjust (account : AccountId) (delta : Asset) : Except FundError (FundState X R) := do
  let balances ← adjustBalance .insufficientBalance s.balances account delta
  return { s with balances := balances }

def checkAuthorized (account : AccountId) (a : AssetId) : Except FundError Unit := do
  check (rules.assetExists s.rest a) .unknownObject
  check (rules.isAuthorizedAsset s.rest account a) .unauthorizedAsset

/-! ## Evaluators -/

def sametFundCreate (op : SametFundCreate) : Except FundError (FundState X R) := do
  check (0 < op.balance) .invalidOperation
  s.checkAuthorized rules op.ownerAccount op.assetType
  let s ← s.adjust op.ownerAccount ⟨-op.balance, op.assetType⟩
  let new : SametFund := ⟨s.funds.nextId, op.ownerAccount, op.assetType, op.balance, op.feeRate, 0⟩
  return { s with funds := s.funds.write new }

def sametFundDelete (op : SametFundDelete) : Except FundError (FundState X R) := do
  let fund ← s.fund op.fundId
  check (fund.ownerAccount = op.ownerAccount) .notOwner
  check (fund.unpaidAmount = 0) .hasUnpaidAmount
  let s ← s.adjust op.ownerAccount ⟨fund.balance, fund.assetType⟩
  return { s with funds := s.funds.remove op.fundId }

def checkDelta (account : AccountId) (fund : SametFund) (delta : Asset) :
    Except FundError Unit := do
  check (fund.assetType = delta.assetId) .assetMismatch
  check (fund.unpaidAmount = 0) .hasUnpaidAmount
  if 0 < delta.amount then s.checkAuthorized rules account fund.assetType
  else check (-delta.amount < fund.balance) .insufficientFund

def updated (fund : SametFund) (op : SametFundUpdate) : SametFund :=
  { fund with
    balance := fund.balance + (op.deltaAmount.map Asset.amount).getD 0
    feeRate := op.newFeeRate.getD fund.feeRate }

def sametFundUpdate (op : SametFundUpdate) : Except FundError (FundState X R) := do
  check (op.deltaAmount.isSome || op.newFeeRate.isSome) .invalidOperation
  check (op.deltaAmount.all (·.amount ≠ 0)) .invalidOperation
  let fund ← s.fund op.fundId
  check (fund.ownerAccount = op.ownerAccount) .notOwner
  (op.deltaAmount.map (s.checkDelta rules op.ownerAccount fund)).getD (.ok ())
  check (op.newFeeRate.all (fund.feeRate ≠ ·)) .sameFeeRate
  let s ← (op.deltaAmount.map fun delta => s.adjust op.ownerAccount delta.neg).getD (.ok s)
  check (0 < (updated fund op).balance) .fundNotPositive
  return { s with funds := s.funds.write (updated fund op) }

def sametFundBorrow (op : SametFundBorrow) : Except FundError (FundState X R) := do
  check (0 < op.borrowAmount.amount) .invalidOperation
  let fund ← s.fund op.fundId
  check (fund.assetType = op.borrowAmount.assetId) .assetMismatch
  check (fund.unpaidAmount + op.borrowAmount.amount ≤ fund.balance) .insufficientFund
  s.checkAuthorized rules op.borrower fund.assetType
  let fund := { fund with unpaidAmount := fund.unpaidAmount + op.borrowAmount.amount }
  let s := { s with funds := s.funds.write fund }
  let s ← s.adjust op.borrower op.borrowAmount
  check (fund.unpaidAmount ≤ fund.balance) .borrowedTooMuch
  return s

def requiredFee (repayAmount : Int) (feeRate : Nat) : Int :=
  divUp (repayAmount * feeRate) grapheneFeeRateDenom

def sametFundRepay (op : SametFundRepay) : Except FundError (FundState X R) := do
  check (0 < op.repayAmount.amount) .invalidOperation
  check (0 ≤ op.fundFee.amount) .invalidOperation
  check (op.repayAmount.assetId = op.fundFee.assetId) .invalidOperation
  let fund ← s.fund op.fundId
  check (fund.assetType = op.repayAmount.assetId) .assetMismatch
  s.checkAuthorized rules op.account fund.assetType
  check (op.repayAmount.amount ≤ fund.unpaidAmount) .repaysTooMuch
  check (requiredFee op.repayAmount.amount fund.feeRate ≤ op.fundFee.amount) .insufficientFundFee
  let s ← s.adjust op.account ⟨-(op.repayAmount.amount + op.fundFee.amount), op.repayAmount.assetId⟩
  let fund :=
    { fund with
      balance := fund.balance + op.fundFee.amount
      unpaidAmount := fund.unpaidAmount - op.repayAmount.amount }
  return { s with funds := s.funds.write fund }

def evaluateFund (s : FundState X R) : FundOperation → Except FundError (FundState X R)
  | .create op => s.sametFundCreate rules op
  | .delete op => s.sametFundDelete op
  | .update op => s.sametFundUpdate rules op
  | .borrow op => s.sametFundBorrow rules op
  | .repay op => s.sametFundRepay rules op

def applyFund (op : FundOperation) : Except FundError (FundState X R) := do
  let s ← s.evaluateFund rules op
  return { s with performed := op :: s.performed }

/-! ## Transactions and proposals -/

def UnpaidBefore (f g : SametFund) : Prop :=
  g.unpaidAmount < f.unpaidAmount ∨ f.unpaidAmount = g.unpaidAmount ∧ f.id ≤ g.id

instance : DecidableRel UnpaidBefore := fun _ _ => inferInstanceAs (Decidable (_ ∨ _))

def byUnpaid : List SametFund :=
  s.funds.objects.insertionSort UnpaidBefore

/-- "Make sure there is no unpaid samet fund debt": only the first fund of the index is looked
at. -/
def checkUnpaid : Except FundError Unit :=
  check (s.byUnpaid.head?.all (·.unpaidAmount = 0)) .unpaidDebtDetected

section

variable (push : FundState X R → Nat → Except FundError (FundState X R))

/-- The execution of a proposal in an operation: a failure is recorded, and everything the proposal
did is undone. -/
def executeProposal
    (s : FundState X R) (proposal : Nat) : FundState X R :=
  if rules.isExecutable s.rest proposal then
    match push s proposal with
    | .ok s' => s'
    | .error _ => { s with rest := rules.recordFailure proposal s.rest }
  else s

/-- The evaluators, given how a proposal is pushed. -/
def evaluate
    (s : FundState X R) : Operation X → Except FundError (FundState X R)
  | .fund op => s.applyFund rules op
  | .proposalCreate ops terms => do
    let rest ← orRejected (rules.createProposal terms s.proposals.nextId ops s.rest)
    return { s with proposals := s.proposals.write ⟨s.proposals.nextId, ops⟩, rest := rest }
  | .proposalUpdate proposal approvals => do
    check (s.proposals.find proposal).isSome .unknownObject
    let rest ← orRejected (rules.updateApprovals approvals proposal s.rest)
    return executeProposal rules push { s with rest := rest } proposal
  | .proposalDelete proposal authority => do
    check (s.proposals.find proposal).isSome .unknownObject
    check (rules.mayDelete authority proposal s.rest) .rejected
    return { s with proposals := s.proposals.remove proposal }
  | .other x => do
    let (balances, rest) ← orRejected (rules.applyOther x s.balances s.rest)
    return { s with balances := balances, rest := rest }

/-- `apply_operation`: the evaluator, and the fee that is taken after it. -/
def applyOperation
    (s : FundState X R) (op : Operation X) : Except FundError (FundState X R) := do
  let s ← evaluate rules push s op
  let (balances, rest) ← orRejected (rules.payFee op s.balances s.rest)
  return { s with balances := balances, rest := rest }

end

/-- `push_proposal`, with the number of undo sessions that may still be nested. -/
def pushProposal : Nat → FundState X R → Nat → Except FundError (FundState X R)
  | 0, _, _ => .error .nestedTooDeeply
  | depth + 1, s, id =>
    match s.proposals.find id with
    | none => .error .unknownObject
    | some proposal => do
      let s ← proposal.operations.foldlM (applyOperation rules (pushProposal depth)) s
      s.checkUnpaid
      return { s with proposals := s.proposals.remove id }

/-- `_apply_transaction`, after the checks of the transaction itself. -/
def applyTransaction (operations : List (Operation X)) : Except FundError (FundState X R) := do
  let push := pushProposal rules (rules.maxNestingDepth s.rest)
  let s ← operations.foldlM (applyOperation rules push) s
  s.checkUnpaid
  return s

end FundState

end Graphene.Funds
