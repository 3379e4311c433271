import Graphene.Db.UndoRevert
import Graphene.Lib.Journal

/-!
# Undo is an inverse

The undo database implements a journal of snapshots: its stack of undo states refines the stack of
saved states of `Lib.Journal`.  So a session that is undone leaves nothing behind, and committed sessions
are popped one by one in reverse order, as far back as the bound on the stack reaches.
-/

namespace Graphene.Db

open Lib Journal
open UndoDatabase (disable)

namespace ObjectDatabase

variable {κ V : Type} {schema : Schema κ V}

/-! ## The stack of undo states refines a journal -/

/-- The undo states on top of the stack stand for the saved snapshots. -/
def Linked (schema : Schema κ V) : Snapshot V → List (UndoState V) → List (Snapshot V) → Prop
  | _, _, [] => True
  | _, [], _ :: _ => False
  | cur, u :: us, s :: ss =>
    u.Consistent cur ∧ u.original cur = s ∧
      (∃ base : ObjectDatabase schema, base.snapshot = s) ∧ Linked schema s us ss

variable {us : List (UndoState V)} {cur : Snapshot V} {ss : List (Snapshot V)}

lemma Linked.take (h : Linked schema cur us ss) (n : Nat) :
    Linked schema cur (us.take n) (ss.take n) := by
  induction n generalizing cur us ss with
  | zero => simp [Linked]
  | succ n ih =>
    cases ss with
    | nil => simp [Linked]
    | cons =>
      cases us with
      | nil => exact h.elim
      | cons =>
        obtain ⟨hcons, horig, hbase, hrest⟩ := h
        exact ⟨hcons, horig, hbase, ih hrest⟩

lemma Linked.cons_inv {s : Snapshot V} (h : Linked schema cur us (s :: ss)) :
    ∃ u us', us = u :: us' ∧ u.Consistent cur ∧ u.original cur = s ∧
      (∃ base : ObjectDatabase schema, base.snapshot = s) ∧ Linked schema s us' ss := by
  cases us with
  | nil => exact h.elim
  | cons u us' => exact ⟨u, us', rfl, h⟩

structure Refines (db : ObjectDatabase schema) (j : Journal (Snapshot V)) : Prop where
  enabled : db.undoDb.disabled = false
  current : j.current = db.snapshot
  bound : j.bound = db.undoDb.maxSize
  linked : Linked schema db.snapshot db.undoDb.stack j.saved

def journal (db : ObjectDatabase schema) : Journal (Snapshot V) where
  current := db.snapshot
  saved := []
  bound := db.undoDb.maxSize

variable {db : ObjectDatabase schema} {j : Journal (Snapshot V)}

lemma journal_refines (hen : db.undoDb.disabled = false) : db.Refines db.journal :=
  ⟨hen, rfl, rfl, by simp [journal, Linked]⟩

lemma Refines.write_self (h : db.Refines j) : db.Refines (j.write db.snapshot) :=
  ⟨h.enabled, rfl, h.bound, h.linked⟩

lemma Refines.start (h : db.Refines j) : db.startUndoSession.Refines j.start where
  enabled := h.enabled
  current := h.current
  bound := h.bound
  linked := by
    refine ⟨UndoState.empty_consistent _, ?_, ⟨db, h.current.symm⟩, ?_⟩
    · exact h.current.symm
    · rw [h.bound, h.current]
      exact h.linked.take _

variable [DecidableEq κ] {cs : List (Call V)} {db' : ObjectDatabase schema}
  {j' : Journal (Snapshot V)}

namespace Call

lemma exec_refines {c : Call V} (h : db.Refines j) (hc : ¬ c.Collides db) :
    (final (c.exec db)).Refines (j.write (final (c.exec db)).snapshot) where
  enabled := (exec_settings c db).2.2.trans h.enabled
  current := rfl
  bound := h.bound.trans (exec_settings c db).1.symm
  linked := by
    cases hs : j.saved with
    | nil => simp [write, hs, Linked]
    | cons s =>
      obtain ⟨u, us, hst, hcons, horig, hbase, hrest⟩ := (hs ▸ h.linked).cons_inv
      have hin : db.InSession s us := ⟨h.enabled, u, hst, hcons, horig⟩
      obtain ⟨u', hst', hcons', horig'⟩ := (exec_inSession hin hc).top
      rw [hst']
      simp only [write, hs]
      exact ⟨hcons', horig', hbase, hrest⟩

/-- A run of calls of which none collides writes the current state of the journal, whether or not
they throw. -/
lemma performAll_refines (h : db.Refines j) (hcs : NoneCollides cs db) :
    (performAll cs db).Refines (j.write (performAll cs db).snapshot) := by
  induction cs generalizing db j with
  | nil => exact h.write_self
  | cons c cs ih =>
    have hstep := exec_refines h hcs.1
    have hrun := ih hstep hcs.2
    exact hrun

lemma execAll_refines (h : db.Refines j) (hrun : execAll cs db = .ok () db') :
    db'.Refines (j.write db'.snapshot) := by
  induction cs generalizing db j with
  | nil =>
    cases hrun
    exact h.write_self
  | cons c cs ih =>
    obtain ⟨db1, hc, hcs⟩ := execAll_cons_ok hrun
    have hfin : final (c.exec db) = db1 := by rw [hc]; rfl
    have hstep := exec_refines h (not_collides_of_ok hc)
    rw [hfin] at hstep
    have hrest := ih hstep hcs
    exact hrest

lemma execAll_activeSessions (hrun : execAll cs db = .ok () db') :
    db'.undoDb.activeSessions = db.undoDb.activeSessions := by
  induction cs generalizing db with
  | nil =>
    cases hrun
    rfl
  | cons c cs ih =>
    obtain ⟨db1, hc, hcs⟩ := execAll_cons_ok hrun
    have hactive := (exec_settings c db).2.1
    rw [hc] at hactive
    exact (ih hcs).trans hactive

end Call

section

variable (h : db.Refines j) (hj : j.restore = some j')
include h hj

lemma Refines.revert (order : IterationOrder V) :
    ∃ u us, db.undoDb.stack = u :: us ∧ Linked schema j'.current us j'.saved ∧ j'.bound = j.bound ∧
      ((KeyReused schema u.newIds db.snapshot (order.oldValues.order u.oldValues.entries) ∧
          ∃ e db', revert order u (db.mapUndo disable) = .error e db') ∨
        (¬ KeyReused schema u.newIds db.snapshot (order.oldValues.order u.oldValues.entries) ∧
          ∃ db', revert order u (db.mapUndo disable) = .ok () db' ∧
            db'.undoDb = db.undoDb.disable ∧ db'.snapshot = j'.current)) := by
  unfold restore at hj
  cases hs : j.saved with
  | nil => simp [hs] at hj
  | cons =>
    rw [hs] at hj
    cases hj
    obtain ⟨u, us, hst, hcons, horig, ⟨base, rfl⟩, hrest⟩ := (hs ▸ h.linked).cons_inv
    exact ⟨u, us, hst, hrest, rfl, revert_spec order (db.mapUndo disable) rfl hcons horig⟩

section

variable (hactive : db.undoDb.activeSessions ≠ 0)
include hactive

lemma Refines.undo_cases (order : IterationOrder V) :
    ∃ u us, db.undoDb.stack = u :: us ∧
      ((KeyReused schema u.newIds db.snapshot (order.oldValues.order u.oldValues.entries) ∧
          ∃ e db', undo order db = .error e db') ∨
        (¬ KeyReused schema u.newIds db.snapshot (order.oldValues.order u.oldValues.entries) ∧
          ∃ db', undo order db = .ok () db' ∧ db'.Refines j' ∧ db'.undoDb.stack = us ∧
            db'.undoDb.activeSessions = db.undoDb.activeSessions - 1)) := by
  obtain ⟨u, us, hst, hlin, hbound, hcase⟩ := h.revert hj order
  refine ⟨u, us, hst, ?_⟩
  rcases hcase with ⟨hr, e, db', he⟩ | ⟨hr, db', hok, hundo, hs⟩
  · exact Or.inl ⟨hr, e, db', by simp [undo, h.enabled, hactive, hst, he]⟩
  · refine Or.inr ⟨hr, _, by simp [undo, h.enabled, hactive, hst, hok]; rfl, ?_, rfl, ?_⟩
    · refine ⟨rfl, hs.symm, ?_, ?_⟩
      · simpa [hundo, disable] using hbound.trans h.bound
      · simpa [hs] using hlin
    · simp [hundo, disable]

variable {u : UndoState V} (hst : db.undoDb.stack = u :: us)
include hst

lemma Refines.undo_ok_iff (order : IterationOrder V) : (∃ db', undo order db = .ok () db') ↔
      ¬ KeyReused schema u.newIds db.snapshot (order.oldValues.order u.oldValues.entries) := by
  obtain ⟨u', us', hst', hcase⟩ := h.undo_cases hj hactive order
  rw [hst, List.cons.injEq] at hst'
  obtain ⟨rfl, rfl⟩ := hst'
  rcases hcase with ⟨hr, e, db', he⟩ | ⟨hr, db', hok, -⟩
  · simp [hr, he]
  · simp [hr, hok]

lemma Refines.undo_ok_inv {order : IterationOrder V} (hok : undo order db = .ok () db') :
    db'.Refines j' ∧ db'.undoDb.stack = us ∧
      db'.undoDb.activeSessions = db.undoDb.activeSessions - 1 := by
  obtain ⟨u', us', hst', hcase⟩ := h.undo_cases hj hactive order
  rw [hst, List.cons.injEq] at hst'
  obtain ⟨rfl, rfl⟩ := hst'
  rcases hcase with ⟨-, e, db'', he⟩ | ⟨-, db'', hok', hspec⟩
  · rw [he] at hok
    cases hok
  · rw [hok'] at hok
    cases hok
    exact hspec

end

lemma Refines.popCommit_ok (hactive : db.undoDb.activeSessions = 0) (hkeys : ∀ i, schema i = [])
    (order : IterationOrder V) :
    ∃ db', popCommit order db = .ok () db' ∧ db'.Refines j' ∧ db'.undoDb.activeSessions = 0 := by
  obtain ⟨u, us, hst, hlin, hbound, hcase⟩ := h.revert hj order
  rcases hcase with ⟨hr, -⟩ | ⟨-, db', hok, hundo, hs⟩
  · exact absurd hr (not_keyReused_of_no_keys hkeys)
  · refine ⟨_, by simp [popCommit, hactive, hst, hok]; rfl, ?_, ?_⟩
    · refine ⟨rfl, hs.symm, ?_, ?_⟩
      · simpa [hundo, disable] using hbound.trans h.bound
      · simpa [hs] using hlin
    · simpa [hundo, disable] using hactive

end

/-! ## Sessions -/

def commitSession (cs : List (Call V)) : DbM schema Unit := fun db =>
  commit (Call.performAll cs db.startUndoSession)

def commitAll : List (List (Call V)) → DbM schema Unit
  | [] => pure ()
  | cs :: rest => do
    commitSession cs
    commitAll rest

def popAll : List (IterationOrder V) → DbM schema Unit
  | [] => pure ()
  | order :: rest => do
    popCommit order
    popAll rest

open ObjectDatabase (commitAll popAll)

lemma Refines.commitSession (h : db.Refines j) (hkeys : ∀ i, schema i = []) (cs : List (Call V)) :
    ∃ db', ObjectDatabase.commitSession cs db = .ok () db' ∧ db'.Refines (j.session db'.snapshot) ∧
      db'.undoDb.activeSessions = db.undoDb.activeSessions := by
  have hrun := Call.performAll_refines h.start (Call.noneCollides_of_no_keys hkeys cs _)
  have hactive : (Call.performAll cs db.startUndoSession).undoDb.activeSessions =
      db.undoDb.activeSessions + 1 :=
    Call.performAll_activeSessions cs db.startUndoSession
  refine ⟨_, by simp [ObjectDatabase.commitSession, commit, hactive]; rfl, ?_, ?_⟩
  · exact ⟨hrun.enabled, rfl, hrun.bound, hrun.linked⟩
  · simp [hactive]

lemma Refines.commitAll (h : db.Refines j) (hkeys : ∀ i, schema i = [])
    (sessions : List (List (Call V))) :
    ∃ db' ss, ss.length = sessions.length ∧ commitAll sessions db = .ok () db' ∧
      db'.Refines (j.sessions ss) ∧ db'.undoDb.activeSessions = db.undoDb.activeSessions ∧
      ∀ k ≤ sessions.length, ∃ dbk, commitAll (sessions.take k) db = .ok () dbk ∧
        dbk.snapshot = (j.sessions (ss.take k)).current := by
  induction sessions generalizing db j with
  | nil =>
    refine ⟨db, [], rfl, rfl, h, rfl, ?_⟩
    intro k _
    exact ⟨db, by simp [commitAll, pure, EStateM.pure], by simp [h.current]⟩
  | cons cs sessions ih =>
    obtain ⟨db1, hok, href, hactive⟩ := h.commitSession hkeys cs
    obtain ⟨db', ss, hlen, hall, href', hact', htake⟩ := ih href
    refine ⟨db', db1.snapshot :: ss, by simp [hlen], ?_, href', hact'.trans hactive, ?_⟩
    · simp [commitAll, bind, EStateM.bind, hok, hall]
    · intro k hk
      cases k with
      | zero => exact ⟨db, by simp [commitAll, pure, EStateM.pure], by simp [h.current]⟩
      | succ k =>
        obtain ⟨dbk, hk', hs⟩ := htake k (by simpa using hk)
        refine ⟨dbk, ?_, hs⟩
        simp [commitAll, bind, EStateM.bind, hok, hk']

lemma Refines.popAll (h : db.Refines j) (hactive : db.undoDb.activeSessions = 0)
    (hkeys : ∀ i, schema i = []) (orders : List (IterationOrder V))
    (hj : restoreN orders.length j = some j') :
    ∃ db', popAll orders db = .ok () db' ∧ db'.Refines j' := by
  induction orders generalizing db j with
  | nil =>
    cases hj
    exact ⟨db, rfl, h⟩
  | cons order orders ih =>
    rw [List.length_cons, restoreN, Option.bind_eq_some_iff] at hj
    obtain ⟨j1, hj1, hj'⟩ := hj
    obtain ⟨db1, hok, href, hact⟩ := h.popCommit_ok hj1 hactive hkeys order
    obtain ⟨db', hall, href'⟩ := ih href hact hj'
    refine ⟨db', ?_, href'⟩
    simp [popAll, bind, EStateM.bind, hok, hall]

def single (schema : Schema κ V) (i : IndexId) (v : V) (maxSize : Nat) : ObjectDatabase schema where
  index := Function.update (fun _ => none) i
    (some { nextId := 1, indices := MultiIndex.empty.put 0 v (MultiIndex.not_occupied_empty 0 v) })
  undoDb := { disabled := false, maxSize := maxSize }

/-! ## The results -/

/-- Without unique keys besides the object id, undo is an exact inverse.  A session that is undone
leaves nothing behind.  After any number of committed sessions, `pop_commit` restores the states
before the last ones in reverse order; the bound on the stack limits how far this goes. -/
theorem undo_restores_and_pops_in_reverse (hkeys : ∀ i, schema i = []) (db : ObjectDatabase schema)
    (hen : db.undoDb.disabled = false) : (∀ (cs : List (Call V)) (order : IterationOrder V),
      ∃ db', undo order (Call.performAll cs db.startUndoSession) = .ok () db' ∧
        db'.snapshot = db.snapshot) ∧
    (db.undoDb.activeSessions = 0 → ∀ sessions : List (List (Call V)),
      ∃ dbₙ, commitAll sessions db = .ok () dbₙ ∧
        ∀ orders : List (IterationOrder V), orders.length ≤ sessions.length →
          orders.length ≤ db.undoDb.maxSize + 1 → ∃ db' dbₖ, popAll orders dbₙ = .ok () db' ∧
            commitAll (sessions.take (sessions.length - orders.length)) db = .ok () dbₖ ∧
            db'.snapshot = dbₖ.snapshot) := by
  have href := journal_refines hen
  constructor
  · intro cs order
    have hrun := Call.performAll_refines href.start (Call.noneCollides_of_no_keys hkeys cs _)
    have hactive : (Call.performAll cs db.startUndoSession).undoDb.activeSessions ≠ 0 := by
      rw [Call.performAll_activeSessions]
      exact Nat.succ_ne_zero _
    rcases hrun.undo_cases rfl hactive order with ⟨u, us, -, ⟨hr, -⟩ | ⟨-, db', hok, href', -, -⟩⟩
    · exact absurd hr (not_keyReused_of_no_keys hkeys)
    · exact ⟨db', hok, href'.current.symm⟩
  · intro hactive sessions
    obtain ⟨dbₙ, ss, hlen, hall, hrefₙ, hactiveₙ, htake⟩ := href.commitAll hkeys sessions
    refine ⟨dbₙ, hall, ?_⟩
    intro orders hle hbound
    -- the journal can be restored this often, and the database follows it
    obtain ⟨j', hj', hcur⟩ := db.journal.restoreN_sessions ss orders.length (hlen ▸ hle) hbound
    obtain ⟨db', hpop, href'⟩ := hrefₙ.popAll (hactiveₙ.trans hactive) hkeys orders hj'
    obtain ⟨dbₖ, hk, hs⟩ := htake (sessions.length - orders.length) (Nat.sub_le _ _)
    refine ⟨db', dbₖ, hpop, hk, ?_⟩
    rw [hs, ← href'.current, hcur, hlen]

/-- A database of numbers with no key besides the id, as it is bounded when it is opened. -/
def numbers : ObjectDatabase fun _ => ([] : List (Nat → Nat)) :=
  single _ ⟨1, 2⟩ 7 10

/-- A session that modifies and removes an object and creates another one is undone. -/
theorem undo_restores_numbers : ∃ db', undo (.forward Nat) (Call.performAll
        [.modify ⟨⟨1, 2⟩, 0⟩ fun v => { value := v + 1 }, .remove ⟨⟨1, 2⟩, 0⟩,
          .create ⟨1, 2⟩ fun _ => some 9] numbers.startUndoSession) = .ok () db' ∧
      db'.snapshot = numbers.snapshot :=
  (undo_restores_and_pops_in_reverse (fun _ => rfl) numbers rfl).1 _ (.forward Nat)

/-- With the bound 10 that a new database sets, the twelfth of twelve `pop_commit` calls finds no
state any more: the state before the first session was dropped when the twelfth one started. -/
theorem twelve_sessions_not_popped : ∃ db db', commitAll (List.replicate 12 []) numbers = .ok () db ∧
      popAll (List.replicate 12 (.forward Nat)) db = .error .emptyUndoStack db' :=
  ⟨_, _, rfl, rfl⟩

/-- With unique keys, undoing a session of successful calls completes and restores the database
exactly when no key is reused; otherwise `undo` throws. -/
theorem undo_completes_iff_no_key_reused (db0 db : ObjectDatabase schema) (cs : List (Call V))
    (order : IterationOrder V) (hen : db0.undoDb.disabled = false)
    (hrun : Call.execAll cs db0.startUndoSession = .ok () db) :
    ∃ u rest, db.undoDb.stack = u :: rest ∧
      ((∃ db', undo order db = .ok () db' ∧ db'.snapshot = db0.snapshot) ↔
        ¬ KeyReused schema u.newIds db.snapshot (order.oldValues.order u.oldValues.entries)) := by
  have href := Call.execAll_refines (journal_refines hen).start hrun
  have hactive : db.undoDb.activeSessions ≠ 0 := by
    rw [Call.execAll_activeSessions hrun]
    exact Nat.succ_ne_zero _
  obtain ⟨u, rest, hst, -⟩ := href.linked.cons_inv
  refine ⟨u, rest, hst, ?_⟩
  rw [← href.undo_ok_iff rfl hactive hst order]
  constructor
  · rintro ⟨db', hok, -⟩
    exact ⟨db', hok⟩
  · rintro ⟨db', hok⟩
    exact ⟨db', hok, (href.undo_ok_inv rfl hactive hst hok).1.current.symm⟩

def distinctNumbers : ObjectDatabase fun _ => [fun v : Nat => v] :=
  single _ ⟨1, 2⟩ 7 10

/-- The key of a removed object is used again. -/
def removeAndReuse : List (Call Nat) :=
  [.remove ⟨⟨1, 2⟩, 0⟩, .create ⟨1, 2⟩ fun _ => some 7]

/-- The key that a modified object gave up is used again. -/
def modifyAndReuse : List (Call Nat) :=
  [.modify ⟨⟨1, 2⟩, 0⟩ fun v => { value := v + 1 }, .create ⟨1, 2⟩ fun _ => some 7]

theorem undo_removeAndReuse_completes_iff :
    ∃ db, Call.execAll removeAndReuse distinctNumbers.startUndoSession = .ok () db ∧
      ∃ u rest, db.undoDb.stack = u :: rest ∧ ((∃ db', undo (.forward Nat) db = .ok () db' ∧
            db'.snapshot = distinctNumbers.snapshot) ↔
          ¬ KeyReused (fun _ => [fun v : Nat => v]) u.newIds db.snapshot
            ((IterationOrder.forward Nat).oldValues.order u.oldValues.entries)) :=
  ⟨_, rfl, undo_completes_iff_no_key_reused distinctNumbers _ removeAndReuse _ rfl rfl⟩

/-- Writing the old value back collides with the new object, which is only removed afterwards. -/
theorem undo_modifyAndReuse_throws :
    ∃ db db', Call.execAll modifyAndReuse distinctNumbers.startUndoSession = .ok () db ∧
      undo (.forward Nat) db = .error .couldNotModifyObject db' :=
  ⟨_, _, rfl, rfl⟩

end ObjectDatabase

end Graphene.Db
