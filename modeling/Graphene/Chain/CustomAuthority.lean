import Graphene.Lib.FlatSet
import Graphene.Lib.Keyed
import Graphene.Lib.NumberedMap
import Graphene.Lib.Outcome
import Graphene.Protocol.Authority
import Graphene.Protocol.RestrictionPredicate

/-!
# Custom authorities

A custom authority keeps its restrictions under 16-bit ids, which come from a counter.  The evaluator
means to refuse an update that makes the counter wrap around, but it adds in 64 bits.  After a wrap the
counter meets ids that are in use, and the new restriction is not stored.
-/

namespace Graphene.Chain

open Protocol Lib List NumberedMap Restriction
open NumberedMap (eraseKeys insertNew)

variable {K : Type}

/-! ## Objects and operations -/

structure CustomAuthorityOptions where
  maxCustomAuthorityLifetimeSeconds : Nat := 60 * 60 * 24 * 30
  maxCustomAuthoritiesPerAccount : Nat := 10
  maxCustomAuthoritiesPerAccountOp : Nat := 3
  maxCustomAuthorityRestrictions : Nat := 10

def restrictionIds : Nat := 2 ^ 16

/-- `custom_authority_object`, without the cached predicate. -/
@[ext] structure CustomAuthority (K : Type) where
  id : Nat
  account : AccountId
  enabled : Bool
  validFrom : Nat
  validTo : Nat
  operationType : Nat
  auth : Authority K
  /-- a map; the last entry is the one with the largest id -/
  restrictions : AList fun _ : Nat => Restriction := ∅
  restrictionCounter : Nat := 0
  counter_lt : restrictionCounter < restrictionIds := by decide

abbrev CustomAuthorities (K : Type) : Type :=
  Store (CustomAuthority.id : CustomAuthority K → Nat)

structure AuthorityContext where
  now : Nat
  customAuthorityOptions : Option CustomAuthorityOptions
  accountExists : AccountId → Bool
  /-- `hardfork_visitor` -/
  forkedIn : Nat → Bool
  /-- the reflected type of an operation that a custom authority supports -/
  operationFields : Nat → Option FieldType

structure CustomAuthorityCreate (K : Type) where
  account : AccountId
  enabled : Bool
  validFrom : Nat
  validTo : Nat
  operationType : Nat
  auth : Authority K
  restrictions : List Restriction

structure CustomAuthorityUpdate (K : Type) where
  account : AccountId
  authorityToUpdate : Nat
  newEnabled : Option Bool := none
  newValidFrom : Option Nat := none
  newValidTo : Option Nat := none
  newAuth : Option (Authority K) := none
  restrictionsToAdd : List Restriction := []
  restrictionsToRemove : FlatSet Nat := FlatSet.empty

structure CustomAuthorityDelete where
  account : AccountId
  authorityToDelete : Nat

inductive CustomAuthorityError where
  | specialAccount
  | validFromNotBeforeValidTo
  | impossibleAuthority
  | mustUpdateSomething
  | accountNotFound
  | configurationNotSet
  | expirationNotInFuture
  | lifetimeExceedsMaximum
  | operationNotValidYet
  | tooManyRestrictions
  | maximumNumberForAccount
  | maximumNumberForOperation
  | authorityNotFound
  | differentAccount
  | enabledNotChanged
  | validFromNotChanged
  | validToNotChanged
  | authNotChanged
  | restrictionIdNotFound (id : Nat)
  | counterOverlapsRestrictions
  | wraparoundOfRestrictionIds
  | unsupportedOperation
  | restriction (e : RestrictionError)

/-- `authority::is_impossible`; address authorities are not supported. -/
def isImpossible (a : Authority K) : Bool :=
  (a.accountAuths.map Prod.snd).sum + (a.keyAuths.map Prod.snd).sum < a.weightThreshold

def isSpecialAccount (a : AccountId) : Bool :=
  a = grapheneTempAccount || a = grapheneCommitteeAccount || a = 1 || a = 2

variable (cx : AuthorityContext)

def checkRestrictions (operationType : Nat) (rs : List Restriction) :
    Except CustomAuthorityError Unit :=
  match cx.operationFields operationType with
  | none => .error .unsupportedOperation
  | some t =>
    match getRestrictionPredicate t rs with
    | .error e => .error (.restriction e)
    | .ok _ => .ok ()

def CustomAuthorityCreate.validate (op : CustomAuthorityCreate K) :
    Except CustomAuthorityError Unit := do
  check (!isSpecialAccount op.account) .specialAccount
  check (op.validFrom < op.validTo) .validFromNotBeforeValidTo
  check (!isImpossible op.auth) .impossibleAuthority
  checkRestrictions cx op.operationType op.restrictions

def CustomAuthorityUpdate.validate (op : CustomAuthorityUpdate K) :
    Except CustomAuthorityError Unit := do
  check (!isSpecialAccount op.account) .specialAccount
  check (op.newValidFrom.all fun f => op.newValidTo.all fun t => f < t) .validFromNotBeforeValidTo
  check (op.newAuth.all fun a => !isImpossible a) .impossibleAuthority
  check (op.newEnabled.isSome || op.newValidFrom.isSome || op.newValidTo.isSome
    || op.newAuth.isSome || !op.restrictionsToRemove.elems.isEmpty
    || !op.restrictionsToAdd.isEmpty) .mustUpdateSomething

def checkExpiration (options : CustomAuthorityOptions) (validTo : Nat) :
    Except CustomAuthorityError Unit := do
  check (cx.now < validTo) .expirationNotInFuture
  check (validTo - cx.now ≤ options.maxCustomAuthorityLifetimeSeconds) .lifetimeExceedsMaximum

/-- The options; an update reads them without asking whether they are set. -/
def getOptions : Except CustomAuthorityError CustomAuthorityOptions :=
  match cx.customAuthorityOptions with
  | none => .error .configurationNotSet
  | some o => .ok o

def CustomAuthorityCreate.doEvaluate (op : CustomAuthorityCreate K)
    (w : CustomAuthorities K) : Except CustomAuthorityError Unit := do
  check (cx.accountExists op.account) .accountNotFound
  let options ← getOptions cx
  checkExpiration cx options op.validTo
  check (cx.forkedIn op.operationType) .operationNotValidYet
  check (restrictionCounts op.restrictions ≤ options.maxCustomAuthorityRestrictions)
    .tooManyRestrictions
  check (op.auth.accountAuths.all fun p => cx.accountExists p.1) .accountNotFound
  check (w.objects.countP (fun a => a.account = op.account) < options.maxCustomAuthoritiesPerAccount)
    .maximumNumberForAccount
  check (w.objects.countP (fun a => a.account = op.account ∧ a.operationType = op.operationType)
    < options.maxCustomAuthoritiesPerAccountOp) .maximumNumberForOperation

/-- Add restrictions, each under the id `restriction_counter++`. -/
def CustomAuthority.insertRestrictions (ca : CustomAuthority K) (rs : List Restriction) :
    CustomAuthority K :=
  { ca with
    restrictions :=
      (NumberedMap.insertNumbered restrictionIds rs (ca.restrictionCounter, ca.restrictions)).2
    restrictionCounter :=
      (NumberedMap.insertNumbered restrictionIds rs (ca.restrictionCounter, ca.restrictions)).1
    counter_lt := insertNumbered_fst_lt ca.counter_lt }

def CustomAuthorityCreate.doApply (op : CustomAuthorityCreate K) (w : CustomAuthorities K) :
    CustomAuthorities K :=
  w.write (CustomAuthority.insertRestrictions
    { id := w.nextId
      account := op.account
      enabled := op.enabled
      validFrom := op.validFrom
      validTo := op.validTo
      operationType := op.operationType
      auth := op.auth } op.restrictions)

/-! ## Update -/

def CustomAuthority.counterAboveRestrictions (ca : CustomAuthority K) : Bool :=
  ca.restrictions.keys.max?.all fun last => last < ca.restrictionCounter

variable {ca : CustomAuthority K} {id : Nat}

lemma CustomAuthority.lt_of_counterAboveRestrictions (h : ca.counterAboveRestrictions = true)
    (hid : id ∈ ca.restrictions) : id < ca.restrictionCounter := by
  unfold counterAboveRestrictions at h
  have hkey : id ∈ ca.restrictions.keys := AList.mem_keys.1 hid
  cases hmax : ca.restrictions.keys.max? with
  | none =>
    rw [max?_eq_none_iff] at hmax
    rw [hmax] at hkey
    cases hkey
  | some last =>
    rw [hmax] at h
    have hle : id ≤ last := (max?_eq_some_iff.1 hmax).2 id hkey
    exact lt_of_le_of_lt hle (of_decide_eq_true h)

def CustomAuthority.checkRemovals (ca : CustomAuthority K) :
    List Nat → Except CustomAuthorityError Unit
  | [] => .ok ()
  | id :: ids => do
    check (id ∈ ca.restrictions) (.restrictionIdNotFound id)
    ca.checkRemovals ids

/-- The checks made when restrictions are added.  `restriction_counter` is promoted to `size_t`
before the sum is compared with it. -/
def CustomAuthority.checkAdditions (ca : CustomAuthority K) (rs : List Restriction) :
    Except CustomAuthorityError Unit := do
  check (rs.isEmpty || ca.counterAboveRestrictions) .counterOverlapsRestrictions
  check (rs.isEmpty || ca.restrictionCounter < (ca.restrictionCounter + rs.length) % 2 ^ 64)
    .wraparoundOfRestrictionIds

/-- The restrictions that the update leaves, counted with those it adds. -/
def CustomAuthority.countAfter (ca : CustomAuthority K) (op : CustomAuthorityUpdate K) : Nat :=
  ((ca.restrictions.entries.filter fun r => r.1 ∉ op.restrictionsToRemove).map fun r =>
    r.2.restrictionCount).sum + restrictionCounts op.restrictionsToAdd

variable [DecidableEq K]

def CustomAuthorityUpdate.checkMembers (cx : AuthorityContext) (options : CustomAuthorityOptions)
    (op : CustomAuthorityUpdate K) (old : CustomAuthority K) :
    Except CustomAuthorityError Unit := do
  check (op.newEnabled.all fun e => e ≠ old.enabled) .enabledNotChanged
  check (op.newValidFrom.all fun t => t ≠ old.validFrom) .validFromNotChanged
  check (op.newValidTo.all fun t => t ≠ old.validTo) .validToNotChanged
  op.newValidTo.forM (checkExpiration cx options)
  check (op.newValidFrom.getD old.validFrom < op.newValidTo.getD old.validTo)
    .validFromNotBeforeValidTo
  check (op.newAuth.all fun a => a ≠ old.auth) .authNotChanged
  check (op.newAuth.all fun a => a.accountAuths.all fun p => cx.accountExists p.1) .accountNotFound

def CustomAuthorityUpdate.doEvaluate (cx : AuthorityContext) (op : CustomAuthorityUpdate K)
    (w : CustomAuthorities K) : Except CustomAuthorityError (CustomAuthority K) :=
  match w.find op.authorityToUpdate with
  | none => .error .authorityNotFound
  | some old => do
    check (old.account = op.account) .differentAccount
    let options ← getOptions cx
    op.checkMembers cx options old
    old.checkRemovals op.restrictionsToRemove.elems
    old.checkAdditions op.restrictionsToAdd
    check (old.countAfter op ≤ options.maxCustomAuthorityRestrictions) .tooManyRestrictions
    checkRestrictions cx old.operationType op.restrictionsToAdd
    pure old

def CustomAuthorityUpdate.modify (op : CustomAuthorityUpdate K) (obj : CustomAuthority K) :
    CustomAuthority K :=
  CustomAuthority.insertRestrictions
    { obj with
      enabled := op.newEnabled.getD obj.enabled
      validFrom := op.newValidFrom.getD obj.validFrom
      validTo := op.newValidTo.getD obj.validTo
      auth := op.newAuth.getD obj.auth
      restrictions := NumberedMap.eraseKeys obj.restrictions op.restrictionsToRemove.elems }
    op.restrictionsToAdd

def CustomAuthorityUpdate.apply (cx : AuthorityContext) (op : CustomAuthorityUpdate K)
    (w : CustomAuthorities K) : Except CustomAuthorityError (CustomAuthorities K) := do
  op.validate
  let old ← op.doEvaluate cx w
  pure (w.write (op.modify old))

open CustomAuthorityUpdate (apply doEvaluate)

def CustomAuthorityDelete.doEvaluate (op : CustomAuthorityDelete) (w : CustomAuthorities K) :
    Except CustomAuthorityError Unit :=
  match w.find op.authorityToDelete with
  | none => .error .authorityNotFound
  | some old => check (old.account = op.account) .differentAccount

def CustomAuthorityDelete.apply (op : CustomAuthorityDelete) (w : CustomAuthorities K) :
    Except CustomAuthorityError (CustomAuthorities K) := do
  check (!isSpecialAccount op.account) .specialAccount
  op.doEvaluate w
  pure (w.remove op.authorityToDelete)

def CustomAuthorityCreate.apply (op : CustomAuthorityCreate K)
    (w : CustomAuthorities K) : Except CustomAuthorityError (CustomAuthorities K) := do
  op.validate cx
  op.doEvaluate cx w
  pure (op.doApply w)

inductive CustomAuthorityCall (K : Type) where
  | create (op : CustomAuthorityCreate K)
  | update (op : CustomAuthorityUpdate K)
  | delete (op : CustomAuthorityDelete)

def CustomAuthorityCall.apply (cx : AuthorityContext) (w : CustomAuthorities K) :
    CustomAuthorityCall K → Except CustomAuthorityError (CustomAuthorities K)
  | create op => op.apply cx w
  | update op => op.apply cx w
  | delete op => op.apply w

/-- The custom authorities after a sequence of operations; one that is refused changes nothing. -/
def customAuthoritiesAfter (w : CustomAuthorities K)
    (calls : List (AuthorityContext × CustomAuthorityCall K)) : CustomAuthorities K :=
  calls.foldl (fun w c => (c.2.apply c.1 w).toOption.getD w) w

/-- A statement about every accepted update of the sequence: the object before it, the operation
and the object after it. -/
def EachUpdate (w : CustomAuthorities K) (calls : List (AuthorityContext × CustomAuthorityCall K))
    (P : CustomAuthority K → CustomAuthorityUpdate K → CustomAuthority K → Prop) : Prop :=
  ∀ earlier cx op later, calls = earlier ++ (cx, .update op) :: later →
    ∀ w', op.apply cx (customAuthoritiesAfter w earlier) = .ok w' →
      ∃ before after, (customAuthoritiesAfter w earlier).find op.authorityToUpdate = some before ∧
        w'.find op.authorityToUpdate = some after ∧ P before op after

/-- The restrictions after the update are the earlier ones without the removed ones, and every
added one under an id of its own. -/
def KeepsRestrictions (before : CustomAuthority K) (op : CustomAuthorityUpdate K)
    (after : CustomAuthority K) : Prop :=
  NumberedMap.Extends
    (fun id => if id ∈ op.restrictionsToRemove then none else before.restrictions.lookup id)
    op.restrictionsToAdd (fun id => after.restrictions.lookup id)

/-- The counter does not come round to an id that stays in use. -/
def HasIdsLeft (before : CustomAuthority K) (op : CustomAuthorityUpdate K) : Prop :=
  op.restrictionsToAdd.length ≤ restrictionIds ∧
    ∀ id ∈ before.restrictions, id ∉ op.restrictionsToRemove →
      before.restrictionCounter + op.restrictionsToAdd.length ≤ id + restrictionIds

/-! ## One update -/

variable {op : CustomAuthorityUpdate K} {w : CustomAuthorities K} {m : Nat}
    (h : m + 2 < restrictionIds)

/-- What an accepted update says: the object exists, it is replaced by the modified one, and the
counter was above all ids where restrictions are added. -/
lemma CustomAuthorityUpdate.apply_inv {cx : AuthorityContext} {w' : CustomAuthorities K}
    (h : op.apply cx w = .ok w') :
    ∃ old, w.find op.authorityToUpdate = some old ∧ w' = w.write (op.modify old) ∧
      (op.restrictionsToAdd ≠ [] → old.counterAboveRestrictions = true) := by
  have h := then_ok h
  obtain ⟨old, heval, h⟩ := bind_eq_ok.1 h
  cases h
  unfold doEvaluate at heval
  cases hfind : w.find op.authorityToUpdate with
  | none =>
    rw [hfind] at heval
    cases heval
  | some obj =>
    rw [hfind] at heval
    have heval := then_ok heval
    obtain ⟨options, -, heval⟩ := bind_eq_ok.1 heval
    have heval := then_ok (then_ok heval)
    obtain ⟨_, hadd, heval⟩ := bind_eq_ok.1 heval
    have heval := then_ok (then_ok heval)
    cases heval
    refine ⟨old, rfl, rfl, fun hne => ?_⟩
    obtain ⟨_, habove, -⟩ := bind_eq_ok.1 hadd
    have hor := check_eq_ok.1 habove
    rwa [isEmpty_eq_false_iff.2 hne, Bool.false_or] at hor

section

omit [DecidableEq K]

lemma keepsRestrictions_modify_iff {old : CustomAuthority K}
    (habove : op.restrictionsToAdd ≠ [] → old.counterAboveRestrictions = true) :
    KeepsRestrictions old op (op.modify old) ↔ HasIdsLeft old op := by
  -- what stays in use
  have hkept : (fun id => if id ∈ op.restrictionsToRemove then none
      else old.restrictions.lookup id) = fun id =>
        (eraseKeys old.restrictions op.restrictionsToRemove.elems).lookup id := by
    funext id
    simp only [lookup_eraseKeys, FlatSet.mem_elems]
  have hused : ∀ id, (eraseKeys old.restrictions
      op.restrictionsToRemove.elems).lookup id = none ↔
        ¬ (id ∈ old.restrictions ∧ id ∉ op.restrictionsToRemove) := by
    intro id
    rw [← congrFun hkept id]
    by_cases hid : id ∈ op.restrictionsToRemove
    · simp [hid]
    · simp [hid, AList.lookup_eq_none]
  unfold KeepsRestrictions HasIdsLeft
  rw [hkept]
  refine extends_insertNumbered_iff.trans ?_
  rw [nodup_numbers_iff old.counter_lt]
  refine and_congr_right fun hn => ?_
  simp only [hused]
  rcases eq_or_ne op.restrictionsToAdd [] with hnil | hne
  · -- without additions the counter does not move
    rw [hnil]
    refine iff_of_true (fun k hk => (not_mem_nil hk).elim) fun id _ _ => ?_
    exact Nat.le_trans (Nat.le_of_lt old.counter_lt) (Nat.le_add_left _ _)
  · rw [numbers_new_iff old.counter_lt hn fun id hid =>
      old.lt_of_counterAboveRestrictions (habove hne) hid.1]
    exact forall_congr' fun id => and_imp

lemma find_written (h : id = ca.id) : (w.write ca).find id = some ca :=
  (Keyed.find_put _ _ _).trans (if_pos h)

end

lemma eachUpdate_congr {calls : List (AuthorityContext × CustomAuthorityCall K)}
    {P Q : CustomAuthority K → CustomAuthorityUpdate K → CustomAuthority K → Prop}
    (h : ∀ old op, (op.restrictionsToAdd ≠ [] → old.counterAboveRestrictions = true) →
      P old op (op.modify old) → Q old op (op.modify old)) (hP : EachUpdate w calls P) :
    EachUpdate w calls Q := by
  intro earlier cx op later hclose w' hw'
  obtain ⟨old, hold, rfl, habove⟩ := CustomAuthorityUpdate.apply_inv hw'
  obtain ⟨before, after, hbefore, hafter, hprop⟩ := hP earlier cx op later hclose _ hw'
  obtain rfl := Option.mem_unique hold hbefore
  have hsto : ((customAuthoritiesAfter w earlier).write (op.modify old)).find
      op.authorityToUpdate = some (op.modify old) :=
    find_written (Keyed.key_of_find hold).symm
  obtain rfl := Option.mem_unique hsto hafter
  exact ⟨old, op.modify old, hold, hsto, h old op habove hprop⟩

/-- Every update of every sequence keeps the restrictions exactly when at every update the counter
does not come round to an id that stays in use. -/
theorem updates_keep_restrictions_iff (w : CustomAuthorities K)
    (calls : List (AuthorityContext × CustomAuthorityCall K)) :
    EachUpdate w calls KeepsRestrictions ↔
      EachUpdate w calls fun before op _ => HasIdsLeft before op := by
  constructor
  · apply eachUpdate_congr
    intro old op habove
    exact (keepsRestrictions_modify_iff habove).1
  · apply eachUpdate_congr
    intro old op habove
    exact (keepsRestrictions_modify_iff habove).2

/-! ## A sequence that uses up the ids -/

/-- A restriction of the first member of an operation to one amount. -/
def amountIs (n : Int) : Restriction :=
  .mk 0 .eq (.scalar .int64 (.number n))

@[simp] lemma restrictionCount_amountIs (n : Int) : (amountIs n).restrictionCount = 1 := by
  simp [amountIs, restrictionCount, argumentCount]

def amountContext : AuthorityContext where
  now := 0
  customAuthorityOptions := some {}
  accountExists := fun _ => true
  forkedIn := fun _ => true
  operationFields := fun _ => some (.object [.scalar .int64])

def twoRestrictions : CustomAuthorityCreate Nat where
  account := 20
  enabled := true
  validFrom := 0
  validTo := 100
  operationType := 0
  auth := { weightThreshold := 1, accountAuths := [(21, 1)], keyAuths := [] }
  restrictions := [amountIs 1, amountIs 1]

def exchange (removed : Nat) (added : List Restriction) : CustomAuthorityUpdate Nat where
  account := 20
  authorityToUpdate := 0
  restrictionsToAdd := added
  restrictionsToRemove := ⟨[removed], pairwise_singleton _ _⟩

/-- The custom authority whose restriction with the last id was exchanged `m` times. -/
def exchanged (m : Nat) (h : m + 2 < restrictionIds) : CustomAuthority Nat where
  id := 0
  account := 20
  enabled := true
  validFrom := 0
  validTo := 100
  operationType := 0
  auth := { weightThreshold := 1, accountAuths := [(21, 1)], keyAuths := [] }
  restrictions := ⟨[⟨m + 1, amountIs 1⟩, ⟨0, amountIs 1⟩], by simp [List.NodupKeys, List.keys]⟩
  restrictionCounter := m + 2
  counter_lt := h

lemma exchanged_counterAbove : (exchanged m h).counterAboveRestrictions = true := by
  simp [CustomAuthority.counterAboveRestrictions, exchanged, AList.keys, keys]

/-- Restrictions that the limits leave room for can be added. -/
def Addable (rs : List Restriction) : Prop :=
  rs ≠ [] ∧ rs.length ≤ 9 ∧ restrictionCounts rs ≤ 9 ∧
    checkRestrictions amountContext 0 rs = .ok ()

lemma exchange_accepted {rs : List Restriction} (hrs : Addable rs) {w : CustomAuthorities Nat}
    (hw : w.find 0 = some (exchanged m h)) : (exchange (m + 1) rs).apply amountContext w =
      .ok (w.write ((exchange (m + 1) rs).modify (exchanged m h))) := by
  obtain ⟨hne, hlen, hcount, hpre⟩ := hrs
  have hval : (exchange (m + 1) rs).validate = .ok () := rfl
  have hrem : (exchanged m h).checkRemovals [m + 1] = .ok () := by
    simp [CustomAuthority.checkRemovals, exchanged, AList.mem_keys, AList.keys, keys, check]
  have had : (exchanged m h).checkAdditions rs = .ok () := by
    have hpos := length_pos_iff.2 hne
    have hids : restrictionIds = 2 ^ 16 := rfl
    have hsum : m + 2 < (m + 2 + rs.length) % 2 ^ 64 := by
      omega
    have hwrap : (rs.isEmpty || decide ((exchanged m h).restrictionCounter <
        ((exchanged m h).restrictionCounter + rs.length) % 2 ^ 64)) = true :=
      Bool.or_eq_true_iff.2 (Or.inr (decide_eq_true hsum))
    unfold CustomAuthority.checkAdditions
    rw [exchanged_counterAbove h, hwrap, Bool.or_true]
    rfl
  have htot : (exchanged m h).countAfter (exchange (m + 1) rs) ≤ 10 := by
    have hone : (exchanged m h).countAfter (exchange (m + 1) rs)
        = 1 + restrictionCounts rs := by
      simp [CustomAuthority.countAfter, exchanged, exchange, ← FlatSet.mem_elems]
    omega
  have heval : (exchange (m + 1) rs).doEvaluate amountContext w = .ok (exchanged m h) := by
    unfold doEvaluate
    rw [show (exchange (m + 1) rs).authorityToUpdate = 0 from rfl, hw]
    simp only [bind_eq_ok]
    exact ⟨_, rfl, {}, rfl, _, rfl, _, hrem, _, had, (), check_eq_ok.2 (decide_eq_true htot), _, hpre,
      rfl⟩
  unfold apply
  rw [hval, ok_bind, heval, ok_bind]
  rfl

lemma addable_one : Addable [amountIs 1] :=
  ⟨cons_ne_nil _ _, by decide, by simp [restrictionCounts], rfl⟩

lemma addable_two : Addable [amountIs 1, amountIs 2] :=
  ⟨cons_ne_nil _ _, by decide, by simp [restrictionCounts], rfl⟩

lemma exchange_modify (h : m + 3 < restrictionIds) :
    (exchange (m + 1) [amountIs 1]).modify (exchanged m (Nat.lt_of_succ_lt h)) =
      exchanged (m + 1) h := by
  have hkept : eraseKeys (exchanged m (Nat.lt_of_succ_lt h)).restrictions [m + 1]
      = (AList.singleton 0 (amountIs 1) : AList fun _ : Nat => Restriction) := by
    apply AList.ext
    simp [eraseKeys, AList.erase, exchanged, kerase, AList.singleton]
  have hnew : m + 2 ∉ (AList.singleton 0 (amountIs 1) : AList fun _ : Nat => Restriction) := by
    simp [AList.mem_keys]
  ext1
  case restrictions =>
    change insertNew (eraseKeys _ [m + 1]) (m + 2) (amountIs 1) = _
    rw [hkept, insertNew, if_neg hnew]
    apply AList.ext
    rfl
  case restrictionCounter => exact Nat.mod_eq_of_lt h
  all_goals rfl

def exchangeCalls (m : Nat) : List (AuthorityContext × CustomAuthorityCall Nat) :=
  (amountContext, .create twoRestrictions) ::
    (List.range m).map fun i => (amountContext, .update (exchange (i + 1) [amountIs 1]))

lemma find_exchangeCalls :
    (customAuthoritiesAfter Store.empty (exchangeCalls m)).find 0 = some (exchanged m h) := by
  induction m with
  | zero => rfl
  | succ m ih =>
    have hm : m + 2 < restrictionIds := Nat.lt_of_succ_lt h
    have hclose : exchangeCalls (m + 1) = exchangeCalls m ++
        [(amountContext, .update (exchange (m + 1) [amountIs 1]))] := by
      simp [exchangeCalls, range_succ]
    have happly := exchange_accepted hm addable_one (ih hm)
    rw [exchange_modify h] at happly
    have hafter : customAuthoritiesAfter Store.empty (exchangeCalls (m + 1)) =
        (customAuthoritiesAfter Store.empty (exchangeCalls m)).write (exchanged (m + 1) h) := by
      rw [hclose, customAuthoritiesAfter, foldl_append]
      change (Except.toOption ((exchange (m + 1) [amountIs 1]).apply amountContext
        (customAuthoritiesAfter Store.empty (exchangeCalls m)))).getD _ = _
      rw [happly]
      rfl
    rw [hafter]
    exact find_written rfl

/-- With the default options, after a creation with two restrictions and 65533 exchanges of the
second one, adding two restrictions stores only the first of them. -/
theorem restriction_lost_after_wraparound : ¬ EachUpdate Store.empty (exchangeCalls 65533 ++
        [(amountContext, .update (exchange 65534 [amountIs 1, amountIs 2]))])
      KeepsRestrictions := by
  intro hkeeps
  have hlast : 65533 + 2 < restrictionIds := by decide
  have hfind := find_exchangeCalls hlast
  have hw := exchange_accepted hlast addable_two hfind
  obtain ⟨before, after, hbefore, hafter, hkept⟩ := hkeeps _ _ _ [] rfl _ hw
  obtain rfl := Option.mem_unique hfind hbefore
  obtain rfl := Option.mem_unique (find_written rfl) hafter
  have hroom := (keepsRestrictions_modify_iff fun _ => exchanged_counterAbove hlast).1 hkept
  -- the first id is in use, and the counter comes round to it
  have hzero : 0 ∈ (exchanged 65533 hlast).restrictions := by
    simp [exchanged, AList.mem_keys, AList.keys, List.keys]
  have hfar : 65533 + 2 + 2 ≤ 0 + restrictionIds := hroom.2 0 hzero (by decide)
  exact absurd hfar (by decide)

end Graphene.Chain
