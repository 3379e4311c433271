import Graphene.Accounts.Balance

/-!
# The budget

`process_budget`, which is run at every maintenance: what the core asset has in reserve pays for witnesses
and workers until the next maintenance.  Amounts are integers, except that the pay of witnesses is
computed modulo `2 ^ 64` and the pay of a worker modulo `2 ^ 128` and then `2 ^ 64`.
-/

namespace Graphene.Maintenance

open Lib Protocol Accounts

/-- `overflow_exception` of `share_type`. -/
inductive BudgetError where
  | overflow
deriving DecidableEq

/-! ## Parameters -/

/-- The members of `chain_parameters` that `validate` and the budget read. -/
structure ChainParameters where
  /-- `current_fees.validate()` goes through -/
  feesAreValid : Bool
  blockInterval : UInt8
  maintenanceInterval : UInt32
  committeeProposalReviewPeriod : UInt32
  maximumTransactionSize : UInt32
  maximumBlockSize : UInt32
  maximumTimeUntilExpiration : UInt32
  maximumProposalLifetime : UInt32
  reservePercentOfFee : Nat
  networkPercentOfFee : Nat
  lifetimeReferrerPercentOfFee : Nat
  witnessPayPerBlock : Int
  workerBudgetPerDay : Int
  marketFeeNetworkPercent : Option Nat
  makerFeeDiscountPercent : Option Nat

def ChainParameters.validate (p : ChainParameters) : Bool :=
  p.feesAreValid && p.reservePercentOfFee ≤ graphene100Percent &&
    p.networkPercentOfFee ≤ graphene100Percent &&
    p.lifetimeReferrerPercentOfFee ≤ graphene100Percent &&
    p.networkPercentOfFee + p.lifetimeReferrerPercentOfFee ≤ graphene100Percent &&
    1 ≤ p.blockInterval && p.blockInterval ≤ 30 && 0 < p.blockInterval &&
    p.blockInterval.toUInt32 < p.maintenanceInterval &&
    p.maintenanceInterval % p.blockInterval.toUInt32 = 0 &&
    1024 ≤ p.maximumTransactionSize && 5120 ≤ p.maximumBlockSize &&
    p.blockInterval.toUInt32 < p.maximumTimeUntilExpiration &&
    p.blockInterval.toUInt32 < p.maximumProposalLifetime - p.committeeProposalReviewPeriod &&
    p.marketFeeNetworkPercent.all (· ≤ 3000) &&
    p.makerFeeDiscountPercent.all (· ≤ graphene100Percent)

structure ValidParameters extends ChainParameters where
  valid : toChainParameters.validate = true

inductive WorkerType where
  | refund (totalBurned : Int)
  | vestingBalance (balance : Nat)
  | burn (totalBurned : Int)
deriving DecidableEq

structure Worker where
  id : Nat
  workBeginDate : UInt32
  workEndDate : UInt32
  dailyPay : Int
  worker : WorkerType
  totalVotesFor : Nat
  totalVotesAgainst : Nat

namespace Worker

def isActive (w : Worker) (now : UInt32) : Bool :=
  w.workBeginDate ≤ now && now ≤ w.workEndDate

def approvingStake (w : Worker) : Int :=
  (w.totalVotesFor : Int).bmod (2 ^ 64) - (w.totalVotesAgainst : Int).bmod (2 ^ 64)

def Preferred (a b : Worker) : Prop :=
  b.approvingStake < a.approvingStake ∨ a.approvingStake = b.approvingStake ∧ a.id ≤ b.id

instance : DecidableRel Preferred := fun _ _ => inferInstanceAs (Decidable (_ ∨ _))

end Worker

structure BudgetState where
  parameters : ValidParameters
  headTime : UInt32
  nextMaintenanceTime : UInt32
  lastBudgetTime : UInt32
  witnessBudget : Int
  maxSupply : Int
  currentSupply : Int
  accumulatedFees : Int
  workers : Store Worker.id
  vestingBalances : Tally Nat
  balances : Balances

structure BudgetRecord where
  timeSinceLastBudget : Nat
  fromInitialReserve : Int
  fromAccumulatedFees : Int
  fromUnusedWitnessBudget : Int
  requestedWitnessBudget : Int
  totalBudget : Int
  witnessBudget : Int
  workerBudget : Int
  leftoverWorkerFunds : Int
  supplyDelta : Int
  maxSupply : Int
  currentSupply : Int

/-- Store an unsigned 64-bit number in a `share_type`. -/
def toShareType (x : Int) : Except BudgetError Int := do
  check (x < 2 ^ 63) .overflow
  return x

namespace BudgetState

variable (s : BudgetState)

def activeWorkers : List Worker :=
  (s.workers.objects.filter fun w => w.isActive s.headTime && 0 < w.approvingStake).insertionSort
    Worker.Preferred

/-- The pay of a worker for the time since the last budget, in microseconds as the source has it;
before it is stored. -/
def requestedPay (w : Worker) : Int :=
  let passedTimeCount : Int := ((s.headTime.toNat : Int) - s.lastBudgetTime.toNat) * 1000000
  w.dailyPay * passedTimeCount % 2 ^ 128 / (86400 * 1000000) % 2 ^ 64

def payWorker (w : Worker) (pay : Int) : BudgetState :=
  match w.worker with
  | .refund totalBurned =>
    { s with
      workers := s.workers.write { w with worker := .refund (totalBurned + pay) }
      currentSupply := s.currentSupply - pay }
  | .vestingBalance balance => { s with vestingBalances := s.vestingBalances.add balance pay }
  | .burn totalBurned =>
    { s with
      workers := s.workers.write { w with worker := .burn (totalBurned + pay) }
      balances := s.balances.add (grapheneNullAccount, 0) pay }

def payLoop : List Worker → BudgetState → Int → Except BudgetError (BudgetState × Int)
  | [], s, budget => .ok (s, budget)
  | w :: workers, s, budget =>
    if 0 < budget then do
      let requested ← toShareType (s.requestedPay w)
      let actual := min budget requested
      payLoop workers (s.payWorker w actual) (budget - actual)
    else .ok (s, budget)

def payWorkers (budget : Int) : Except BudgetError (BudgetState × Int) :=
  payLoop s.activeWorkers s budget

/-! ## The budget -/

def reserved : Int :=
  s.maxSupply - s.currentSupply

def timeSinceLastBudget : Nat :=
  if s.lastBudgetTime = 0 ∨ s.headTime ≤ s.lastBudgetTime then 0
  else s.headTime.toNat - s.lastBudgetTime.toNat

/-- What can be used: the reserve, with the fees and the rest of the last witness budget. -/
def reserve : Int :=
  s.reserved + s.accumulatedFees + s.witnessBudget

/-- `GRAPHENE_CORE_ASSET_CYCLE_RATE` of the reserve, rounded up, but not more than all of it. -/
def totalBudget : Int :=
  if s.lastBudgetTime = 0 ∨ s.headTime ≤ s.lastBudgetTime then 0
  else
    let budget := (s.reserve * s.timeSinceLastBudget * 17 + (2 ^ 32 - 1)) / 2 ^ 32
    if budget < s.reserve then budget else s.reserve

def initializeBudgetRecord : BudgetRecord where
  timeSinceLastBudget := s.timeSinceLastBudget
  fromInitialReserve := s.reserved
  fromAccumulatedFees := s.accumulatedFees
  fromUnusedWitnessBudget := s.witnessBudget
  requestedWitnessBudget := 0
  totalBudget := s.totalBudget
  witnessBudget := 0
  workerBudget := 0
  leftoverWorkerFunds := 0
  supplyDelta := 0
  maxSupply := s.maxSupply
  currentSupply := 0

def timeToMaint : Int :=
  s.nextMaintenanceTime.toNat - s.headTime.toNat

def blocksToMaint : Int :=
  (s.timeToMaint + s.parameters.blockInterval.toNat - 1) / s.parameters.blockInterval.toNat

/-- The product of a signed and an unsigned 64-bit number, which is unsigned. -/
def requestedWitnessBudget : Int :=
  s.parameters.witnessPayPerBlock * s.blocksToMaint % 2 ^ 64

def workerBudgetOf (availableFunds : Int) : Int :=
  let workerBudget := s.parameters.workerBudgetPerDay * s.timeToMaint / 86400
  if availableFunds ≤ workerBudget then availableFunds else workerBudget

def supplyDelta (record : BudgetRecord) : Int :=
  record.witnessBudget + record.workerBudget - record.leftoverWorkerFunds
    - record.fromAccumulatedFees - record.fromUnusedWitnessBudget

/-- After workers are paid: the supply and the witness budget are updated. -/
def applyRecord (record : BudgetRecord) : BudgetState × BudgetRecord :=
  let s :=
    { s with
      currentSupply := s.currentSupply + supplyDelta record
      accumulatedFees := 0
      witnessBudget := record.witnessBudget
      lastBudgetTime := s.headTime }
  (s, { record with supplyDelta := supplyDelta record, currentSupply := s.currentSupply })

def processBudget : Except BudgetError (BudgetState × BudgetRecord) := do
  let record := s.initializeBudgetRecord
  let requested ← toShareType s.requestedWitnessBudget
  let witnessBudget := min requested record.totalBudget
  let workerBudget := s.workerBudgetOf (record.totalBudget - witnessBudget)
  let (s, leftover) ← s.payWorkers workerBudget
  return s.applyRecord
    { record with
      requestedWitnessBudget := requested
      witnessBudget := witnessBudget
      workerBudget := workerBudget
      leftoverWorkerFunds := leftover }

end BudgetState

end Graphene.Maintenance
