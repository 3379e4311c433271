import Graphene.Protocol.Types

/-!
# Checking authorities

`sign_state` and `verify_authority`: which authorities a set of signatures and
approvals satisfies.  The checker explores the accounts that an authority refers to,
down to a recursion limit, and remembers in `approved_by` every account it has found
approved on the way.  It returns as soon as a threshold is reached, so the state it
leaves behind depends on the order of the entries.

Authorities here have keys and accounts; the address entries that old authorities
may have are left out.
-/

namespace Graphene.Protocol

open List

structure Authority (K : Type) where
  weightThreshold : Nat
  accountAuths : List (AccountId × Nat)
  keyAuths : List (K × Nat)
deriving DecidableEq

def addWeight (total weight : Nat) : Nat :=
  (total + weight) % 2 ^ 32

/-- `flat_set`: the elements in order, without repetition. -/
def flatSet (l : List AccountId) : List AccountId :=
  l.dedup.insertionSort (· ≤ ·)

lemma mem_flatSet {l : List AccountId} {a : AccountId} : a ∈ flatSet l ↔ a ∈ l := by
  simp [flatSet]

/-- What changes in `sign_state`: the signatures, marked when they have been used, and the accounts
known to approve. -/
structure SignState (K : Type) where
  providedSignatures : List (K × Bool)
  approvedBy : List AccountId

/-- The authorities an operation requires, from `operation_get_required_authorities`. -/
structure RequiredAuthorities (K : Type) where
  active : List AccountId
  owner : List AccountId
  other : List (Authority K)

/-- What `verify_authority` is given besides the operations, the signatures and the approvals. -/
structure AuthorityLookup (K Op : Type) where
  getActive : AccountId → Option (Authority K)
  getOwner : AccountId → Option (Authority K)
  getCustom : AccountId → Op → List (Authority K)
  requiredAuthorities : Op → RequiredAuthorities K
  allowNonImmediateOwner : Bool
  maxRecursion : Nat

inductive AuthorityError (K : Type) where
  | txMissingOtherAuth (auth : Authority K)
  | txMissingOwnerAuth (id : AccountId)
  | txMissingActiveAuth (id : AccountId)
  | invalidCommitteeApproval
  | txIrrelevantSig
deriving DecidableEq

def AuthorityError.isMissing {K : Type} : AuthorityError K → Bool
  | .txMissingOtherAuth _ => true
  | .txMissingOwnerAuth _ => true
  | .txMissingActiveAuth _ => true
  | .invalidCommitteeApproval => false
  | .txIrrelevantSig => false

variable {K Op : Type} [DecidableEq K]

namespace SignState

/-- `signed_by`, with no available keys besides the signatures. -/
def signedBy (k : K) (s : SignState K) : Bool × SignState K :=
  if k ∈ s.providedSignatures.map Prod.fst then
    (true, { s with
      providedSignatures := s.providedSignatures.map fun p => if p.1 = k then (p.1, true) else p })
  else (false, s)

/-- `approved_by.insert`. -/
def approve (a : AccountId) (s : SignState K) : SignState K :=
  if a ∈ s.approvedBy then s else { s with approvedBy := a :: s.approvedBy }

end SignState

/-- The loop over the keys of an authority; `none` when the threshold has been reached. -/
def checkKeys (threshold : Nat) : List (K × Nat) → Nat → SignState K → Option Nat × SignState K
  | [], total, s => (some total, s)
  | (k, w) :: rest, total, s =>
    match s.signedBy k with
    | (false, s) => checkKeys threshold rest total s
    | (true, s) =>
      if threshold ≤ addWeight total w then (none, s)
      else checkKeys threshold rest (addWeight total w) s

/-- The loop over the accounts of an authority; `expand` is missing at the recursion limit. -/
def checkAccounts (expand : Option (AccountId → SignState K → Bool × SignState K))
    (threshold : Nat) : List (AccountId × Nat) → Nat → SignState K → Option Nat × SignState K
  | [], total, s => (some total, s)
  | (a, w) :: rest, total, s =>
    if a ∈ s.approvedBy then
      if threshold ≤ addWeight total w then (none, s)
      else checkAccounts expand threshold rest (addWeight total w) s
    else match expand with
      | none => checkAccounts expand threshold rest total s
      | some check =>
        match check a s with
        | (false, s) => checkAccounts expand threshold rest total s
        | (true, s) =>
          if threshold ≤ addWeight total w then (none, s.approve a)
          else checkAccounts expand threshold rest (addWeight total w) (s.approve a)

/-- The body of `check_authority`. -/
def checkEntries (expand : Option (AccountId → SignState K → Bool × SignState K))
    (auth : Authority K) (s : SignState K) : Bool × SignState K :=
  match checkKeys auth.weightThreshold auth.keyAuths 0 s with
  | (none, s) => (true, s)
  | (some total, s) =>
    match checkAccounts expand auth.weightThreshold auth.accountAuths total s with
    | (none, s) => (true, s)
    | (some total, s) => (decide (auth.weightThreshold ≤ total), s)

namespace AuthorityLookup

variable (env : AuthorityLookup K Op)

/-- An account approves with its active authority, or with its owner authority where that is
allowed. -/
def checkBoth
    (check : Option (Authority K) → SignState K → Bool × SignState K) (a : AccountId)
    (s : SignState K) : Bool × SignState K :=
  match check (env.getActive a) s with
  | (true, s) => (true, s)
  | (false, s) => if env.allowNonImmediateOwner then check (env.getOwner a) s else (false, s)

/-- `check_authority( au, depth )`, by the number of levels left. -/
def checkAuthority (env : AuthorityLookup K Op) :
    Nat → Option (Authority K) → SignState K → Bool × SignState K
  | _, none, s => (false, s)
  | 0, some auth, s => checkEntries none auth s
  | left + 1, some auth, s => checkEntries (some (env.checkBoth (checkAuthority env left))) auth s

/-- `check_authority( id )`. -/
def checkAccount (a : AccountId) (s : SignState K) :
    Bool × SignState K :=
  if a ∈ s.approvedBy then (true, s)
  else env.checkBoth (env.checkAuthority env.maxRecursion) a s

/-- `approved_by_custom_authority`, over the viable custom authorities. -/
def approvedByCustomAuthority (env : AuthorityLookup K Op) :
    List (Authority K) → SignState K → Bool × SignState K
  | [], s => (false, s)
  | auth :: rest, s =>
    match env.checkAuthority env.maxRecursion (some auth) s with
    | (true, s) => (true, s)
    | (false, s) => approvedByCustomAuthority env rest s

/-- The loop over `operation_required_active`: the accounts that no custom authority approves. -/
def eraseApproved (env : AuthorityLookup K Op) (op : Op) :
    List AccountId → SignState K → List AccountId × SignState K
  | [], s => ([], s)
  | a :: rest, s =>
    match env.approvedByCustomAuthority (env.getCustom a op) s with
    | (true, s) => eraseApproved env op rest s
    | (false, s) =>
      match eraseApproved env op rest s with
      | (left, s) => (a :: left, s)

/-- The loop over the operations: what ends up in `required_active`. -/
def requiredActive (env : AuthorityLookup K Op) :
    List Op → SignState K → List AccountId × SignState K
  | [], s => ([], s)
  | op :: ops, s =>
    match env.eraseApproved op (flatSet (env.requiredAuthorities op).active) s with
    | (left, s) =>
      match requiredActive env ops s with
      | (rest, s) => (left ++ rest, s)

def checkOwner (ownerApprovals : List AccountId) (id : AccountId)
    (s : SignState K) : Bool × SignState K :=
  if id ∈ ownerApprovals then (true, s)
  else env.checkAuthority env.maxRecursion (env.getOwner id) s

def checkActive (id : AccountId) (s : SignState K) :
    Bool × SignState K :=
  match env.checkAccount id s with
  | (true, s) => (true, s)
  | (false, s) => env.checkAuthority env.maxRecursion (env.getOwner id) s

end AuthorityLookup

def assertAll {α : Type} (check : α → SignState K → Bool × SignState K)
    (err : α → AuthorityError K) : List α → SignState K → Except (AuthorityError K) (SignState K)
  | [], s => .ok s
  | x :: rest, s =>
    match check x s with
    | (true, s) => assertAll check err rest s
    | (false, _) => .error (err x)

def initialApprovals (activeApprovals ownerApprovals : List AccountId) : List AccountId :=
  grapheneTempAccount :: activeApprovals ++ ownerApprovals

lemma initialApprovals_subset {active owner active' owner' : List AccountId}
    (hact : active ⊆ active') (hown : owner ⊆ owner') :
    initialApprovals active owner ⊆ initialApprovals active' owner' := by
  intro a ha
  rcases mem_append.1 ha with ha | ha
  · exact mem_append_left _ (cons_subset_cons _ hact ha)
  · exact mem_append_right _ (hown ha)

/-- `sign_state` when `verify_authority` starts. -/
def SignState.initial (sigs : List K) (activeApprovals ownerApprovals : List AccountId) :
    SignState K where
  providedSignatures := sigs.map fun k => (k, false)
  approvedBy := initialApprovals activeApprovals ownerApprovals

namespace AuthorityLookup

/-- The assertions of `verify_authority` that report missing authorities, in their order. -/
def checkRequired (env : AuthorityLookup K Op) (ops : List Op)
    (ownerApprovals required : List AccountId) (s : SignState K) :
    Except (AuthorityError K) (SignState K) := do
  let s ← assertAll (fun auth => env.checkAuthority env.maxRecursion (some auth))
    .txMissingOtherAuth (ops.flatMap fun op => (env.requiredAuthorities op).other) s
  let s ← assertAll (env.checkOwner ownerApprovals) .txMissingOwnerAuth
    (flatSet (ops.flatMap fun op => (env.requiredAuthorities op).owner)) s
  assertAll env.checkActive .txMissingActiveAuth (flatSet required) s

def verifyAuthority (env : AuthorityLookup K Op) (ops : List Op) (sigs : List K)
    (allowCommittee : Bool) (activeApprovals ownerApprovals : List AccountId) :
    Except (AuthorityError K) Unit :=
  match env.requiredActive ops (.initial sigs activeApprovals ownerApprovals) with
  | (required, s) =>
    if allowCommittee = false ∧ grapheneCommitteeAccount ∈ required then
      .error .invalidCommitteeApproval
    else match env.checkRequired ops ownerApprovals required s with
      | .error e => .error e
      | .ok s =>
        if s.providedSignatures.all fun p => p.2 then .ok ()
        else .error .txIrrelevantSig

end AuthorityLookup

end Graphene.Protocol
