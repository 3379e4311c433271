import Graphene.Db.NestedSessions

/-!
# Proposals and virtual operations

`push_proposal` and `try_push_virtual_operation` apply operations while another operation, or the end
of a block, is being applied.  Each call opens an undo session, and what undo does not cover is put back
by hand.

An evaluator is a `Program`: it reads the state, creates, modifies and removes objects, records virtual
operations, and makes nested calls whose exceptions it may catch.  The depth of the nesting is limited,
so the calls are defined by recursion on the levels that are left.  A destructor that fails ends the
process (`Failure.terminated`).
-/

namespace Graphene.Chain

open Db List ObjectDatabase
open Db.ObjectDatabase (Call Tracked final)

inductive Failure where
  /-- an exception, which a handler can catch -/
  | thrown
  /-- `std::terminate`, called by the destructor of a session that can not be undone -/
  | terminated
deriving DecidableEq

structure OperationPosition where
  blockNum : Nat
  trxInBlock : Nat
  opInTrx : Nat
  blockTime : Nat
deriving DecidableEq

/-- `operation_history_object`; the result is filled in after the operation. -/
structure AppliedOperation (Op R : Type) where
  op : Op
  position : OperationPosition
  virtualOp : UInt32
  isVirtual : Bool
  result : Option R := none

/-- What operations read and write: the object database, which undo covers, and the members of
`database` that it does not cover. -/
structure ExecState {κ V : Type} (schema : Schema κ V) (Op R : Type) where
  db : ObjectDatabase schema
  appliedOps : List (Option (AppliedOperation Op R))
  currentVirtualOp : UInt32
  undoSessionNestingDepth : Nat
  position : OperationPosition

abbrev ExecM {κ V : Type} (schema : Schema κ V) (Op R α : Type) :=
  EStateM Failure (ExecState schema Op R) α

/-- An evaluator.  A nested call that throws gives `none` to what follows it. -/
inductive Program {κ V : Type} (schema : Schema κ V) (E Op R : Type) where
  | done (result : R)
  | throws
  | read (k : ExecState schema Op R → Program schema E Op R)
  | call (c : Call V) (keeps : c.KeepsKeys schema) (k : Program schema E Op R)
  | record (op : Op) (result : Option R) (k : Program schema E Op R)
  | virtualOperation (evalState : E) (op : Op) (k : Option R → Program schema E Op R)
  | proposal (id : ObjectId) (k : Option (List R) → Program schema E Op R)

structure NestedCalls {κ V : Type} (schema : Schema κ V) (E Op R : Type) where
  tryPushVirtualOperation : E → Op → ExecM schema Op R R
  pushProposal : ObjectId → ExecM schema Op R (List R)

structure ExecEnv {κ V : Type} (schema : Schema κ V) (E Op R : Type) where
  /-- `_operation_evaluators` -/
  evaluator : E → Op → Option (Program schema E Op R)
  /-- whether `operation_validate` accepts the operation -/
  operationValidate : Op → Bool
  /-- the operations of a proposal object -/
  proposedOperations : V → List Op
  /-- the evaluation state of a proposed transaction, after the operations with these results -/
  proposalState : List Op → List R → E
  /-- whether the first fund of the index by unpaid amount has an unpaid amount -/
  unpaidSametFund : Snapshot V → Bool
  /-- operations do not change the active witnesses -/
  activeWitnesses : Nat
  order : IterationOrder V

namespace ExecState

variable {κ V : Type} {schema : Schema κ V} {Op R : Type}

/-- The constructor of `undo_session_nesting_guard`, and `start_undo_session( true )` with room for
one more state. -/
def enter (s : ExecState schema Op R) : ExecState schema Op R :=
  { s with
    db := s.db.makeRoom.startForcedSession
    undoSessionNestingDepth := s.undoSessionNestingDepth + 1 }

/-- The destructors of a session that has nothing to undo any more and of the guard. -/
def leave (s : ExecState schema Op R) (disableOnExit : Bool) : ExecState schema Op R :=
  { s with
    db := if disableOnExit then s.db.mapUndo UndoDatabase.disable else s.db
    undoSessionNestingDepth := s.undoSessionNestingDepth - 1 }

end ExecState

section Steps

variable {κ V : Type} [DecidableEq κ] {schema : Schema κ V} {Op R α : Type}

def liftDb (m : ObjectDatabase.DbM schema α) : ExecM schema Op R α := fun s =>
  match m s.db with
  | .ok a db => .ok a { s with db := db }
  | .error _ db => .error .thrown { s with db := db }

def pushAppliedOperation (op : Op) (isVirtual : Bool) : ExecM schema Op R Nat := fun s =>
  .ok s.appliedOps.length
    { s with
      appliedOps := s.appliedOps ++ [some
        { op := op, position := s.position, virtualOp := s.currentVirtualOp, isVirtual := isVirtual }]
      currentVirtualOp := s.currentVirtualOp + 1 }

def setAppliedOperationResult (opId : Nat) (result : R) : ExecM schema Op R Unit := fun s =>
  .ok () { s with
    appliedOps := s.appliedOps.modify opId (·.map fun o => { o with result := some result }) }

/-- `push_applied_operation` of a virtual operation that is not evaluated; a few of them get a
result. -/
def recordOperation (op : Op) (result : Option R) : ExecM schema Op R Unit := do
  let opId ← pushAppliedOperation op true
  match result with
  | none => pure ()
  | some r => setAppliedOperationResult opId r

def caught (m : ExecM schema Op R α) : ExecM schema Op R (Option α) := fun s =>
  match m s with
  | .ok a s' => .ok (some a) s'
  | .error .thrown s' => .ok none s'
  | .error .terminated s' => .error .terminated s'

def resize {β : Type} (l : List (Option β)) (n : Nat) : List (Option β) :=
  l.take n ++ List.replicate (n - l.length) none

def restoring (m : ExecM schema Op R α) : ExecM schema Op R α := fun s =>
  match m s with
  | .ok a s' => .ok a s'
  | .error .thrown s' => .error .thrown
      { s' with
        currentVirtualOp := s.currentVirtualOp
        appliedOps := resize s'.appliedOps s.appliedOps.length }
  | .error .terminated s' => .error .terminated s'

end Steps

namespace Program

variable {κ V : Type} [DecidableEq κ] {schema : Schema κ V} {E Op R : Type}

def run (calls : NestedCalls schema E Op R) : Program schema E Op R → ExecM schema Op R R
  | done result => pure result
  | throws => throw .thrown
  | read k => fun s => (k s).run calls s
  | call c _ k => do
    liftDb c.exec
    k.run calls
  | record op result k => do
    recordOperation op result
    k.run calls
  | virtualOperation evalState op k => do
    let result ← caught (calls.tryPushVirtualOperation evalState op)
    (k result).run calls
  | proposal id k => do
    let results ← caught (calls.pushProposal id)
    (k results).run calls

end Program

namespace ExecEnv

variable {κ V : Type} [DecidableEq κ] {schema : Schema κ V} {E Op R α : Type}

variable (env : ExecEnv schema E Op R) (calls : NestedCalls schema E Op R)

/-- "Max undo session nesting depth exceeded!" -/
def maxDepth : Nat :=
  env.activeWitnesses * 2

def applyOperation (evalState : E) (op : Op) (isVirtual : Bool := true) : ExecM schema Op R R :=
  match env.evaluator evalState op with
  | none => throw .thrown
  | some program => do
    let opId ← pushAppliedOperation op isVirtual
    let result ← program.run calls
    setAppliedOperationResult opId result
    pure result

def unwind (disableOnExit : Bool) : ExecM schema Op R α := fun s =>
  match undo env.order s.db with
  | .ok _ db => .error .thrown (({ s with db := db } : ExecState schema Op R).leave disableOnExit)
  | .error _ db => .error .terminated { s with db := db }

/-- Run `body` in a session of its own, merge it at the end, and undo it if there is an exception,
also one of `merge`. -/
def inSession (body : ExecM schema Op R α) : ExecM schema Op R α := fun s =>
  if s.undoSessionNestingDepth < env.maxDepth then
    match body s.enter with
    | .ok a s1 =>
      match merge s1.db with
      | .ok _ db =>
        .ok a (({ s1 with db := db } : ExecState schema Op R).leave s.db.undoDb.disabled)
      | .error _ db => env.unwind s.db.undoDb.disabled { s1 with db := db }
    | .error .thrown s1 => env.unwind s.db.undoDb.disabled s1
    | .error .terminated s1 => .error .terminated s1
  else .error .thrown s

/-- The loop of `push_proposal` over the operations that are left. -/
def applyProposed (env : ExecEnv schema E Op R) (calls : NestedCalls schema E Op R) (ops : List Op) :
    List Op → List R → ExecM schema Op R (List R)
  | [], results => pure results
  | op :: rest, results => do
    let result ← env.applyOperation calls (env.proposalState ops results) op
    env.applyProposed calls ops rest (results ++ [result])

/-- "Unpaid SameT Fund debt detected" -/
def checkSametFunds : ExecM schema Op R Unit := fun s =>
  if env.unpaidSametFund s.db.snapshot then .error .thrown s else .ok () s

/-- What `push_proposal` does inside its session. -/
def executeProposal (id : ObjectId) (ops : List Op) : ExecM schema Op R (List R) := do
  let results ← env.applyProposed calls ops ops []
  env.checkSametFunds
  liftDb (Call.remove id : Call V).exec
  pure results

def pushVirtualOperationWith (evalState : E) (op : Op) : ExecM schema Op R R :=
  if env.operationValidate op then
    restoring (env.inSession (env.applyOperation calls evalState op))
  else throw .thrown

def pushProposalWith (id : ObjectId) : ExecM schema Op R (List R) := fun s =>
  match s.db.findObject id with
  | none => .error .thrown s
  | some proposal =>
    restoring (env.inSession (env.executeProposal calls id (env.proposedOperations proposal))) s

def nested (env : ExecEnv schema E Op R) : Nat → NestedCalls schema E Op R
  | 0 => ⟨fun _ _ => throw .thrown, fun _ => throw .thrown⟩
  | n + 1 => ⟨env.pushVirtualOperationWith (env.nested n), env.pushProposalWith (env.nested n)⟩

def innerCalls (s : ExecState schema Op R) : NestedCalls schema E Op R :=
  env.nested (env.maxDepth - (s.undoSessionNestingDepth + 1))

def tryPushVirtualOperation (evalState : E) (op : Op) : ExecM schema Op R R := fun s =>
  (env.nested (env.maxDepth - s.undoSessionNestingDepth)).tryPushVirtualOperation evalState op s

def pushProposal (id : ObjectId) : ExecM schema Op R (List R) := fun s =>
  (env.nested (env.maxDepth - s.undoSessionNestingDepth)).pushProposal id s

end ExecEnv

/-! ## What a step inside a session leaves alone -/

structure ExecState.Frame {κ V : Type} {schema : Schema κ V} {Op R : Type}
    (s s' : ExecState schema Op R) : Prop where
  depth : s'.undoSessionNestingDepth = s.undoSessionNestingDepth
  active : s'.db.undoDb.activeSessions = s.db.undoDb.activeSessions
  applied : s.appliedOps <+: s'.appliedOps

namespace ExecState.Frame

variable {κ V : Type} {schema : Schema κ V} {Op R : Type} {s s' s'' : ExecState schema Op R}

lemma refl (s : ExecState schema Op R) : s.Frame s := ⟨rfl, rfl, prefix_refl _⟩

lemma trans (h : s.Frame s') (h' : s'.Frame s'') : s.Frame s'' :=
  ⟨h'.depth.trans h.depth, h'.active.trans h.active, h.applied.trans h'.applied⟩

end ExecState.Frame

/-- The result of a step inside a session: the session and the frame are kept, whether it returns or
throws, and the process does not end. -/
def Stays {κ V : Type} {schema : Schema κ V} {Op R α : Type} (base : ObjectDatabase schema)
    (rest : List (UndoState V)) (s : ExecState schema Op R) :
    EStateM.Result Failure (ExecState schema Op R) α → Prop
  | .ok _ s' => Tracked base rest s'.db ∧ s.Frame s'
  | .error .thrown s' => Tracked base rest s'.db ∧ s.Frame s'
  | .error .terminated _ => False

def Confined {κ V : Type} {schema : Schema κ V} {Op R α : Type} (m : ExecM schema Op R α) : Prop :=
  ∀ base rest (s : ExecState schema Op R), Tracked base rest s.db → Stays base rest s (m s)

lemma prefix_modify {β : Type} {l l' : List β} {i : Nat} (h : l <+: l') (hi : l.length ≤ i)
    (f : β → β) : l <+: l'.modify i f := by
  rw [prefix_iff_eq_take] at h ⊢
  rw [take_modify, ← h, modify_eq_self hi]

namespace Confined

variable {κ V : Type} [DecidableEq κ] {schema : Schema κ V} {E Op R α β : Type}

section Rules

omit [DecidableEq κ]

lemma pure (a : α) : Confined (Pure.pure a : ExecM schema Op R α) := fun _ _ s h => ⟨h, .refl s⟩

lemma thrown : Confined (throw .thrown : ExecM schema Op R α) := fun _ _ s h => ⟨h, .refl s⟩

variable {m : ExecM schema Op R α}

lemma bind {f : α → ExecM schema Op R β} (hm : Confined m) (hf : ∀ a, Confined (f a)) :
    Confined (m >>= f) := by
  intro base rest s h
  have hrun := hm base rest s h
  change Stays base rest s (EStateM.bind m f s)
  rw [EStateM.bind]
  cases hms : m s with
  | error e =>
    rw [hms] at hrun
    cases e with
    | thrown | terminated => exact hrun
  | ok a s' =>
    rw [hms] at hrun
    have hnext := hf a base rest s' hrun.1
    change Stays base rest s (f a s')
    cases hfs : f a s' with
    | ok =>
      rw [hfs] at hnext
      exact ⟨hnext.1, hrun.2.trans hnext.2⟩
    | error e =>
      rw [hfs] at hnext
      cases e with
      | thrown => exact ⟨hnext.1, hrun.2.trans hnext.2⟩
      | terminated => exact hnext

lemma caught (hm : Confined m) : Confined (caught m) := by
  intro base rest s h
  have hrun := hm base rest s h
  unfold Chain.caught
  cases hms : m s with
  | ok =>
    rwa [hms] at hrun
  | error e =>
    rw [hms] at hrun
    cases e with
    | thrown | terminated => exact hrun

lemma recordOperation (op : Op) (result : Option R) :
    Confined (recordOperation op result : ExecM schema Op R Unit) := by
  intro base rest s h
  cases result with
  | none => exact ⟨h, rfl, rfl, prefix_append _ _⟩
  | some => exact ⟨h, rfl, rfl, prefix_modify (prefix_append _ _) le_rfl _⟩

lemma applied {m : ExecM schema Op R R} (hm : Confined m) (op : Op) (isVirtual : Bool) : Confined (do
      let opId ← pushAppliedOperation op isVirtual
      let result ← m
      setAppliedOperationResult opId result
      Pure.pure result) := by
  intro base rest s h
  obtain ⟨opId, s1, hpush⟩ : ∃ opId s1, pushAppliedOperation op isVirtual s = .ok opId s1 :=
    ⟨_, _, rfl⟩
  have hfrm : s.Frame s1 ∧ opId = s.appliedOps.length ∧ s1.db = s.db := by
    cases hpush
    exact ⟨⟨rfl, rfl, prefix_append _ _⟩, rfl, rfl⟩
  have hrun := hm base rest s1 (hfrm.2.2 ▸ h)
  change Stays base rest s (EStateM.bind (pushAppliedOperation op isVirtual) _ s)
  rw [EStateM.bind, hpush]
  change Stays base rest s (EStateM.bind m _ s1)
  rw [EStateM.bind]
  cases hms : m s1 with
  | ok =>
    rw [hms] at hrun
    have htot := hfrm.1.trans hrun.2
    exact ⟨hrun.1, htot.depth, htot.active, prefix_modify htot.applied (Nat.le_of_eq hfrm.2.1.symm) _⟩
  | error e =>
    rw [hms] at hrun
    cases e with
    | thrown => exact ⟨hrun.1, hfrm.1.trans hrun.2⟩
    | terminated => exact hrun

end Rules

lemma liftDb_exec {c : Call V} (hc : c.KeepsKeys schema) :
    Confined (liftDb c.exec : ExecM schema Op R Unit) := by
  intro base rest s h
  have hexec := h.exec hc
  have hact := (Call.exec_settings c s.db).2.1
  unfold liftDb
  cases hrun : c.exec s.db with
  | ok _ db | error _ db =>
    rw [hrun] at hexec hact
    exact ⟨hexec, rfl, hact, prefix_refl _⟩

lemma run {calls : NestedCalls schema E Op R}
    (hvop : ∀ e op, Confined (calls.tryPushVirtualOperation e op))
    (hpro : ∀ id, Confined (calls.pushProposal id)) (p : Program schema E Op R) :
    Confined (p.run calls) := by
  induction p with
  | done result => exact pure result
  | throws => exact thrown
  | read k ih => exact fun base rest s h => ih s base rest s h
  | call c hc k ih => exact (liftDb_exec hc).bind fun _ => ih
  | record op result k ih => exact (recordOperation op result).bind fun _ => ih
  | virtualOperation e op k ih => exact (hvop e op).caught.bind ih
  | proposal id k ih => exact (hpro id).caught.bind ih

end Confined

open Confined (pure run thrown)

namespace ExecEnv

variable {κ V : Type} [DecidableEq κ] {schema : Schema κ V} {E Op R α : Type}
variable {env : ExecEnv schema E Op R} {calls : NestedCalls schema E Op R}

section

variable (hvop : ∀ e op, Confined (calls.tryPushVirtualOperation e op))
include hvop

variable (hpro : ∀ id, Confined (calls.pushProposal id))
include hpro

lemma confined_applyOperation (e : E) (op : Op) (isVirtual : Bool) :
    Confined (env.applyOperation calls e op isVirtual) := by
  unfold applyOperation
  cases env.evaluator e op with
  | none => exact thrown
  | some program => exact (run hvop hpro program).applied op isVirtual

lemma confined_applyProposed (ops rest : List Op) (results : List R) :
    Confined (env.applyProposed calls ops rest results) := by
  induction rest generalizing results with
  | nil => exact pure results
  | cons op rest ih =>
    exact (confined_applyOperation hvop hpro _ op true).bind fun r => ih (results ++ [r])

lemma confined_executeProposal (id : ObjectId) (ops : List Op) :
    Confined (env.executeProposal calls id ops) := by
  have hfunds : Confined (env.checkSametFunds : ExecM schema Op R Unit) := by
    intro base rest s h
    unfold checkSametFunds
    split_ifs
    · exact ⟨h, .refl s⟩
    · exact ⟨h, .refl s⟩
  have hrm : (Call.remove id : Call V).KeepsKeys schema := trivial
  refine (confined_applyProposed hvop hpro ops ops []).bind fun results => ?_
  exact hfunds.bind fun _ => (Confined.liftDb_exec hrm).bind fun _ => pure results

end

/-! ## A session of its own -/

/-- An exception passed a session that began in `s`.  What undo does not cover is still as the body
left it. -/
structure Undone (s s' : ExecState schema Op R) : Prop where
  objects : s'.db.snapshot = s.db.snapshot
  appliedOps : s.appliedOps <+: s'.appliedOps
  nestingDepth : s'.undoSessionNestingDepth = s.undoSessionNestingDepth
  undoStack : s'.db.undoDb.stack = s.db.undoDb.stack
  undoDisabled : s'.db.undoDb.disabled = s.db.undoDb.disabled
  activeSessions : s'.db.undoDb.activeSessions = s.db.undoDb.activeSessions

/-- Everything is as in `s`, apart from the bound on the undo stack. -/
structure Unchanged (s s' : ExecState schema Op R) : Prop where
  objects : s'.db.snapshot = s.db.snapshot
  appliedOps : s'.appliedOps = s.appliedOps
  currentVirtualOp : s'.currentVirtualOp = s.currentVirtualOp
  nestingDepth : s'.undoSessionNestingDepth = s.undoSessionNestingDepth
  undoStack : s'.db.undoDb.stack = s.db.undoDb.stack
  undoDisabled : s'.db.undoDb.disabled = s.db.undoDb.disabled
  activeSessions : s'.db.undoDb.activeSessions = s.db.undoDb.activeSessions

/-- A session that began in `s` and ended in `s'` kept what its operations had made, `s1`. -/
structure Kept (s s1 s' : ExecState schema Op R) : Prop where
  objects : s'.db.snapshot = s1.db.snapshot
  appliedOps : s'.appliedOps = s1.appliedOps
  currentVirtualOp : s'.currentVirtualOp = s1.currentVirtualOp
  nestingDepth : s'.undoSessionNestingDepth = s.undoSessionNestingDepth
  undoStates : s'.db.undoDb.size = s.db.undoDb.size
  undoDisabled : s'.db.undoDb.disabled = s.db.undoDb.disabled
  activeSessions : s'.db.undoDb.activeSessions = s.db.undoDb.activeSessions

section Sessions

variable {s s1 : ExecState schema Op R}

section

omit [DecidableEq κ]

lemma active_of_frame (h : s.enter.Frame s1) :
    s1.db.undoDb.activeSessions = s.db.undoDb.activeSessions + 1 := by
  obtain ⟨n, hundo⟩ := s.db.startForcedSession_undoDb
  refine h.active.trans ?_
  change s.db.makeRoom.startForcedSession.undoDb.activeSessions = _
  rw [hundo]

lemma leave_disabled (hen : s1.db.undoDb.disabled = false) (d : Bool) :
    (s1.leave d).db.undoDb.disabled = d := by
  cases d with
  | true => rfl
  | false => exact hen

end

lemma unwind_undone (htra : Tracked s.db s.db.undoDb.stack s1.db) (hfrm : s.enter.Frame s1) :
    ∃ s', env.unwind s.db.undoDb.disabled s1 =
      (.error .thrown s' : EStateM.Result Failure (ExecState schema Op R) α) ∧ Undone s s' := by
  have hact := active_of_frame hfrm
  have hne : s1.db.undoDb.activeSessions ≠ 0 := by
    rw [hact]
    exact Nat.succ_ne_zero _
  obtain ⟨db, hundo, hsnap, hdb⟩ := htra.undo_ok hne env.order
  refine ⟨({ s1 with db := db } : ExecState schema Op R).leave s.db.undoDb.disabled, ?_, ?_⟩
  · simp only [unwind, hundo]
  · have hdepth : s1.undoSessionNestingDepth - 1 = s.undoSessionNestingDepth := by
      rw [hfrm.depth]
      rfl
    refine ⟨?_, hfrm.applied, hdepth, ?_, leave_disabled ?_ _, ?_⟩
    · cases hd : s.db.undoDb.disabled <;> exact hsnap
    · cases hd : s.db.undoDb.disabled <;> simp [ExecState.leave, hdb, UndoDatabase.disable]
    · simp [hdb]
    · cases hd : s.db.undoDb.disabled <;>
        simp [ExecState.leave, hdb, UndoDatabase.disable, hact]

omit [DecidableEq κ] in
lemma merge_cases {db : ObjectDatabase schema} {u : UndoState V} {rest : List (UndoState V)}
    (hst : db.undoDb.stack = u :: rest) (hact : db.undoDb.activeSessions ≠ 0) :
    (∃ e, merge db = .error e db) ∨
    (∃ db', merge db = .ok () db' ∧ db'.snapshot = db.snapshot ∧
      db'.undoDb.size = rest.length ∧ db'.undoDb.disabled = db.undoDb.disabled ∧
      db'.undoDb.activeSessions = db.undoDb.activeSessions - 1) := by
  unfold ObjectDatabase.merge
  rw [if_neg hact, hst]
  cases rest with
  | cons => exact .inr ⟨_, rfl, rfl, rfl, rfl, rfl⟩
  | nil =>
    dsimp only
    by_cases hone : db.undoDb.activeSessions = 1 ∧ [u].length = 1
    · rw [if_pos hone]
      exact .inr ⟨_, rfl, rfl, rfl, rfl, rfl⟩
    · rw [if_neg hone]
      exact .inl ⟨_, rfl⟩

lemma inSession_cases {body : ExecM schema Op R α} (hbody : Confined body)
    (hids : s.db.snapshot.IdsBelowNext) :
    (∃ a s1 db', body s.enter = .ok a s1 ∧ Tracked s.db s.db.undoDb.stack s1.db ∧
      s.enter.Frame s1 ∧ merge s1.db = .ok () db' ∧
      env.inSession body s =
        .ok a (({ s1 with db := db' } : ExecState schema Op R).leave s.db.undoDb.disabled)) ∨
    (∃ s', env.inSession body s = .error .thrown s' ∧ Undone s s') := by
  unfold inSession
  by_cases hdepth : s.undoSessionNestingDepth < env.maxDepth
  · rw [if_pos hdepth]
    have hrun := hbody s.db s.db.undoDb.stack s.enter
      (tracked_startForcedSession hids)
    cases hb : body s.enter with
    | error e =>
      rw [hb] at hrun
      cases e with
      | terminated => exact hrun.elim
      | thrown => exact .inr (unwind_undone hrun.1 hrun.2)
    | ok a s1 =>
      rw [hb] at hrun
      obtain ⟨u, hst, -, -⟩ := hrun.1.inSession.top
      have hne : s1.db.undoDb.activeSessions ≠ 0 := by
        rw [active_of_frame hrun.2]
        exact Nat.succ_ne_zero _
      dsimp only
      rcases merge_cases hst hne with ⟨e, hmrg⟩ | ⟨db', hmrg, -⟩
      · rw [hmrg]
        exact .inr (unwind_undone hrun.1 hrun.2)
      · rw [hmrg]
        exact .inl ⟨a, s1, db', rfl, hrun.1, hrun.2, hmrg, rfl⟩
  · rw [if_neg hdepth]
    exact .inr ⟨s, rfl, rfl, prefix_refl _, rfl, rfl, rfl, rfl⟩

omit [DecidableEq κ] in
lemma kept_of_merge {db' : ObjectDatabase schema} (htra : Tracked s.db s.db.undoDb.stack s1.db)
    (hfrm : s.enter.Frame s1) (hmrg : merge s1.db = .ok () db') :
    Kept s s1 (({ s1 with db := db' } : ExecState schema Op R).leave s.db.undoDb.disabled) := by
  have hact := active_of_frame hfrm
  obtain ⟨u, hst, -, -⟩ := htra.inSession.top
  have hne : s1.db.undoDb.activeSessions ≠ 0 := by
    rw [hact]
    exact Nat.succ_ne_zero _
  rcases merge_cases hst hne with ⟨e, he⟩ | ⟨db'', hok, hsnap, hsize, hdis, hact'⟩
  · rw [he] at hmrg
    cases hmrg
  · rw [hok] at hmrg
    cases hmrg
    have hdepth : s1.undoSessionNestingDepth - 1 = s.undoSessionNestingDepth := by
      rw [hfrm.depth]
      rfl
    have hen : db'.undoDb.disabled = false := hdis.trans htra.inSession.enabled
    have hact'' : db'.undoDb.activeSessions = s.db.undoDb.activeSessions := by
      rw [hact', hact, Nat.add_sub_cancel]
    refine ⟨?_, rfl, rfl, hdepth, ?_, leave_disabled hen _, ?_⟩
    · cases hd : s.db.undoDb.disabled <;> exact hsnap
    · cases hd : s.db.undoDb.disabled <;> exact hsize
    · cases hd : s.db.undoDb.disabled <;> exact hact''

end Sessions

lemma resize_of_initial {β : Type} {l l' : List (Option β)} (h : l <+: l') :
    resize l' l.length = l := by
  have hle : l.length - l'.length = 0 := Nat.sub_eq_zero_of_le h.length_le
  rw [resize, hle, ← prefix_iff_eq_take.1 h]
  exact append_nil l

/-- A call that runs `body` in a session of its own either keeps everything or changes nothing. -/
def AllOrNothing (s : ExecState schema Op R) (body : ExecM schema Op R α)
    (result : EStateM.Result Failure (ExecState schema Op R) α) : Prop :=
  (∃ a s1 s', body s.enter = .ok a s1 ∧ result = .ok a s' ∧ Kept s s1 s') ∨
    ∃ s', result = .error .thrown s' ∧ Unchanged s s'

variable {s : ExecState schema Op R} {body : ExecM schema Op R α}

lemma allOrNothing_restoring (hbody : Confined body) (hids : s.db.snapshot.IdsBelowNext) :
    AllOrNothing s body (restoring (env.inSession body) s) := by
  unfold restoring
  rcases inSession_cases hbody hids with
    ⟨a, s1, db', hb, htra, hfrm, hmrg, hrun⟩ | ⟨s', hrun, hund⟩
  · rw [hrun]
    exact .inl ⟨a, s1, _, hb, rfl, kept_of_merge htra hfrm hmrg⟩
  · rw [hrun]
    exact .inr ⟨_, rfl, hund.objects, resize_of_initial hund.appliedOps, rfl,
      hund.nestingDepth, hund.undoStack, hund.undoDisabled, hund.activeSessions⟩

lemma confined_restoring (hbody : Confined body) : Confined (restoring (env.inSession body)) := by
  intro base rest s h
  unfold restoring
  rcases inSession_cases hbody h.fresh.below with
    ⟨a, s1, db', hb, htra, hfrm, hmrg, hrun⟩ | ⟨s', hrun, hund⟩
  · have hkept := kept_of_merge htra hfrm hmrg
    have hne : s1.db.undoDb.activeSessions ≠ 0 := by
      rw [active_of_frame hfrm]
      exact Nat.succ_ne_zero _
    obtain ⟨db'', hmrg', -, htra', -⟩ := h.merge_ok htra hne
    rw [hmrg'] at hmrg
    cases hmrg
    rw [hrun]
    rw [h.inSession.enabled] at hkept ⊢
    exact ⟨htra', hkept.nestingDepth, hkept.activeSessions, hfrm.applied⟩
  · rw [hrun]
    refine ⟨h.congr hund.objects hund.undoStack hund.undoDisabled, hund.nestingDepth,
      hund.activeSessions, ?_⟩
    have hsame := resize_of_initial hund.appliedOps
    exact ⟨[], by rw [hsame, append_nil]⟩

/-! ## All levels -/

lemma confined_nested (env : ExecEnv schema E Op R) (n : Nat) :
    (∀ e op, Confined ((env.nested n).tryPushVirtualOperation e op)) ∧
      ∀ id, Confined ((env.nested n).pushProposal id) := by
  induction n with
  | zero => exact ⟨fun _ _ => thrown, fun _ => thrown⟩
  | succ n ih =>
    refine ⟨?_, ?_⟩
    · intro e op
      change Confined (env.pushVirtualOperationWith (env.nested n) e op)
      unfold pushVirtualOperationWith
      split_ifs
      · exact confined_restoring (confined_applyOperation ih.1 ih.2 e op true)
      · exact thrown
    · intro id base rest s h
      change Stays base rest s (env.pushProposalWith (env.nested n) id s)
      unfold pushProposalWith
      cases s.db.findObject id with
      | none => exact ⟨h, .refl s⟩
      | some => exact confined_restoring (confined_executeProposal ih.1 ih.2 id _) base rest s h

lemma restoring_inSession_of_deep (hdeep : env.maxDepth ≤ s.undoSessionNestingDepth) :
    restoring (env.inSession body) s = .error .thrown s := by
  have hguard : env.inSession body s = .error .thrown s := if_neg (Nat.not_lt.2 hdeep)
  unfold restoring
  rw [hguard]
  change EStateM.Result.error _ _ = _
  rw [resize_of_initial (prefix_refl _)]

lemma tryPushVirtualOperation_eq (e : E) (op : Op) :
    env.tryPushVirtualOperation e op s = env.pushVirtualOperationWith (env.innerCalls s) e op s := by
  unfold tryPushVirtualOperation innerCalls
  cases hleft : env.maxDepth - s.undoSessionNestingDepth with
  | succ n =>
    have hinner : env.maxDepth - (s.undoSessionNestingDepth + 1) = n := by omega
    rw [hinner]
    rfl
  | zero =>
    unfold pushVirtualOperationWith
    split_ifs
    · rw [restoring_inSession_of_deep (by omega)]
      rfl
    · rfl

lemma pushProposal_eq (id : ObjectId) :
    env.pushProposal id s = env.pushProposalWith (env.innerCalls s) id s := by
  unfold pushProposal innerCalls
  cases hleft : env.maxDepth - s.undoSessionNestingDepth with
  | succ n =>
    have hinner : env.maxDepth - (s.undoSessionNestingDepth + 1) = n := by omega
    rw [hinner]
    rfl
  | zero =>
    unfold pushProposalWith
    cases s.db.findObject id with
    | none => rfl
    | some =>
      change _ = restoring (env.inSession _) s
      rw [restoring_inSession_of_deep (by omega)]
      rfl

/-- At every nesting depth, with undo enabled or disabled, a virtual operation and a proposal either
return, and then everything their operations did is kept, or throw, and then nothing has changed. -/
theorem nested_calls_all_or_nothing (env : ExecEnv schema E Op R) (s : ExecState schema Op R)
    (hids : s.db.snapshot.IdsBelowNext) :
    (∀ e op, AllOrNothing s (env.applyOperation (env.innerCalls s) e op)
      (env.tryPushVirtualOperation e op s)) ∧ (∀ id proposal, s.db.findObject id = some proposal →
      AllOrNothing s (env.executeProposal (env.innerCalls s) id (env.proposedOperations proposal))
        (env.pushProposal id s)) := by
  have hinner := confined_nested env (env.maxDepth - (s.undoSessionNestingDepth + 1))
  refine ⟨?_, ?_⟩
  · intro e op
    rw [tryPushVirtualOperation_eq]
    unfold pushVirtualOperationWith
    split_ifs
    · exact allOrNothing_restoring (confined_applyOperation hinner.1 hinner.2 e op true) hids
    · exact .inr ⟨s, rfl, rfl, rfl, rfl, rfl, rfl, rfl, rfl⟩
  · intro id proposal hfind
    rw [pushProposal_eq]
    unfold pushProposalWith
    rw [hfind]
    exact allOrNothing_restoring (confined_executeProposal hinner.1 hinner.2 id _) hids

/-- Operation 0 modifies an object, makes the virtual operation 1 and then throws; operation 1
creates an object. -/
def changeThenThrow : Nat → Option (Program (fun _ => ([] : List (Nat → Nat))) Unit Nat Nat)
  | 0 => some (.call (.modify ⟨⟨1, 2⟩, 0⟩ fun v => { value := v + 1 })
      (fun _ _ hk => nomatch hk) (.virtualOperation () 1 fun _ => .throws))
  | 1 => some (.call (.create ⟨1, 2⟩ fun _ => some 9) trivial (.done 0))
  | _ => none

def sampleEnv : ExecEnv (fun _ => ([] : List (Nat → Nat))) Unit Nat Nat where
  evaluator := fun _ => changeThenThrow
  operationValidate := fun _ => true
  proposedOperations := fun _ => []
  proposalState := fun _ _ => ()
  unpaidSametFund := fun _ => false
  activeWitnesses := 11
  order := .forward Nat

def sampleState : ExecState (fun _ => ([] : List (Nat → Nat))) Nat Nat where
  db := { numbers with undoDb := {} }
  appliedOps := []
  currentVirtualOp := 3
  undoSessionNestingDepth := 0
  position := ⟨7, 0, 0, 100⟩

/-- The inner operation succeeds and is undone with the outer one. -/
theorem nested_calls_all_or_nothing_sample :
    ∃ s', sampleEnv.tryPushVirtualOperation () 0 sampleState = .error .thrown s' ∧
      Unchanged sampleState s' := by
  have hnumbers : numbers.snapshot.IdsBelowNext :=
    single_idsBelowNext ⟨1, 2⟩ 7 10
  rcases (nested_calls_all_or_nothing sampleEnv sampleState hnumbers).1 () 0 with
    ⟨a, s1, s', -, hrun, -⟩ | hthrown
  · cases hrun
  · exact hthrown

end ExecEnv

end Graphene.Chain
