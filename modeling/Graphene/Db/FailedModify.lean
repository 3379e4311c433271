import Graphene.Db.UndoInverse
import Graphene.Lib.RunLogic

/-!
# Failed modifications

`primary_index::modify` tells the undo database about the object before the container changes it.  When
the new value collides with another object, the container erases the object, while the undo state still
lists it.  Undo recovers exactly when no modification of the session collided and no key is reused.
-/

namespace Graphene.Db

open Lib List Option Snapshot UndoDatabase UndoState

namespace Trace

variable {V : Type}

/-- The object is listed as new or modified and is gone, or it is listed as both.  The second
happens when the id of a lost object is given out again. -/
def Lost (t : Trace V) (cur : Option V) : Prop :=
  (cur = none ∧ t.isNew = true ∧ t.old = none) ∨
    (t.old ≠ none ∧ t.removed = none ∧ (cur = none ∨ t.isNew = true))

variable {t : Trace V} {obj : V} {cur : Option V}

lemma Lost.onCreate (h : t.Lost cur) (hold : t.old ≠ none) (item : V) :
    t.onCreate.Lost (some item) := by
  rcases h with ⟨-, -, hnone⟩ | ⟨-, hrem, -⟩
  · exact absurd hnone hold
  · exact .inr ⟨hold, hrem, .inr rfl⟩

section

variable (h : t.Lost (some obj))
include h

lemma Lost.isNew_of_some : t.old ≠ none ∧ t.removed = none ∧ t.isNew = true := by
  rcases h with ⟨hcur, -⟩ | ⟨hold, hrem, hcur | hnew⟩
  · cases hcur
  · cases hcur
  · exact ⟨hold, hrem, hnew⟩

lemma Lost.onModify (new : Option V) : (t.onModify obj).Lost new ∧ (t.onModify obj).old ≠ none := by
  obtain ⟨hold, hrem, hnew⟩ := h.isNew_of_some
  rw [Trace.onModify, if_pos hnew]
  exact ⟨.inr ⟨hold, hrem, .inr hnew⟩, hold⟩

lemma Lost.onRemove : (t.onRemove obj).Lost none ∧ (t.onRemove obj).old ≠ none := by
  obtain ⟨hold, hrem, hnew⟩ := h.isNew_of_some
  rw [Trace.onRemove, if_pos hnew]
  exact ⟨.inr ⟨hold, hrem, .inl rfl⟩, hold⟩

end

lemma Fits.onModify_lost (h : t.Fits (some obj)) : (t.onModify obj).Lost none := by
  cases hnew : t.isNew with
  | true =>
    rw [Trace.onModify, if_pos hnew]
    exact .inl ⟨rfl, hnew, (h.new hnew).2⟩
  | false =>
    have hrem : t.removed = none := by
      by_contra hrem
      cases h.removed hrem hnew
    have hold : t.old.or (some obj) ≠ none := by
      cases t.old <;> simp
    rw [Trace.onModify, if_neg (by simp [hnew])]
    exact .inr ⟨hold, hrem, .inl rfl⟩

lemma original_ne_none (hnew : t.isNew = false) (hold : t.old ≠ none) : t.original cur ≠ none := by
  obtain ⟨v, hv⟩ := ne_none_iff_exists'.1 hold
  simp [original, hnew, hv]

end Trace

namespace ObjectDatabase

variable {κ V : Type} [DecidableEq κ] {schema : Schema κ V}

/-! ## What a completed revert tells -/

variable {id : ObjectId} {db db' : ObjectDatabase schema}

lemma insert_inv {obj : V} (h : insert id obj db = .ok () db') :
    db'.snapshot = db.snapshot.setObject id (some obj) := by
  unfold insert at h
  cases hidx : db.index id.index with
  | none => simp [hidx] at h
  | some idx =>
    cases hins : idx.indices.insert? id.inst obj with
    | none => simp [hidx, hins] at h
    | some =>
      simp only [hidx, hins, EStateM.Result.ok.injEq, true_and] at h
      obtain ⟨-, -, hfind⟩ := MultiIndex.insert?_eq_some hins
      rw [← h, snapshot_mapUndo]
      exact snapshot_setIndex db id hidx hfind

variable {l : List (Σ _ : ObjectId, V)}

lemma restoreOldValues_inv (h : restoreOldValues l db = .ok () db') :
    (∀ e ∈ l, db.snapshot.find e.1 ≠ none) ∧
      ∀ id, db'.snapshot.find id = none ↔ db.snapshot.find id = none := by
  induction l generalizing db with
  | nil =>
    cases h
    exact ⟨by simp, fun _ => Iff.rfl⟩
  | cons item l ih =>
    obtain ⟨_, db1, hmod, hrest⟩ := bind_ok_iff.1 h
    obtain ⟨hpre, hkeep⟩ := ih hrest
    have hset : db.snapshot.find item.1 ≠ none ∧
        db1.snapshot = db.snapshot.setObject item.1 (some item.2) := by
      rcases modify_cases item.1 (fun _ => { value := item.2 }) db with
        ⟨e, he, -⟩ | ⟨obj, db2, hobj, -, ⟨-, hs, he⟩ | ⟨-, -, e, he⟩⟩
      · rw [he] at hmod
        cases hmod
      · rw [he] at hmod
        cases hmod
        exact ⟨by rw [hobj]; exact some_ne_none obj, hs⟩
      · rw [he] at hmod
        cases hmod
    obtain ⟨hitem, hs⟩ := hset
    have hsame : ∀ id, db1.snapshot.find id = none ↔ db.snapshot.find id = none := by
      intro id
      rw [hs, find_setObject]
      split_ifs with hid
      · subst hid
        exact iff_of_false not_false hitem
      · rfl
    constructor
    · intro e he
      rcases mem_cons.1 he with rfl | he
      · exact hitem
      · exact fun hcur => hpre e he ((hsame e.1).2 hcur)
    · exact fun id => (hkeep id).trans (hsame id)

section

omit [DecidableEq κ]

lemma removeNewIds_inv {l : List ObjectId} (h : removeNewIds l db = .ok () db') :
    (∀ id ∈ l, db.snapshot.find id ≠ none) ∧
      ∀ id, db.snapshot.find id = none ∨ id ∈ l → db'.snapshot.find id = none := by
  induction l generalizing db with
  | nil =>
    cases h
    exact ⟨by simp, fun id hid => by simpa using hid⟩
  | cons a l ih =>
    obtain ⟨_, db1, hrem, hrest⟩ := bind_ok_iff.1 h
    obtain ⟨hpre, hgone⟩ := ih hrest
    rcases remove_cases a db with ⟨e, he, -⟩ | ⟨obj, db2, he, hobj, -, hs⟩
    · rw [he] at hrem
      cases hrem
    rw [he] at hrem
    cases hrem
    rw [hs] at hpre hgone
    constructor
    · intro id hid
      rcases mem_cons.1 hid with rfl | hid
      · rw [hobj]
        exact some_ne_none obj
      · have hfind := hpre id hid
        rw [find_setObject] at hfind
        split_ifs at hfind with hida
        · exact absurd rfl hfind
        · exact hfind
    · intro id hid
      apply hgone
      by_cases hida : id = a
      · exact .inl (by rw [find_setObject, if_pos hida])
      · rw [find_setObject, if_neg hida]
        simpa [hida] using hid

lemma restoreNextIds_inv {l : List (Σ _ : IndexId, Nat)} (h : restoreNextIds l db = .ok () db') :
    db'.snapshot.find = db.snapshot.find := by
  induction l generalizing db with
  | nil =>
    cases h
    rfl
  | cons item l ih =>
    obtain ⟨_, db1, hset, hrest⟩ := bind_ok_iff.1 h
    have hfind : db1.snapshot.find = db.snapshot.find := by
      unfold setNextId at hset
      cases hidx : db.index item.1 with
      | none => simp [hidx] at hset
      | some =>
        simp only [hidx, EStateM.Result.ok.injEq, true_and] at hset
        rw [← hset, snapshot_setNextId hidx]
        rfl
    exact (ih hrest).trans hfind

end

lemma insertRemoved_inv (h : insertRemoved l db = .ok () db') (hid : ∀ e ∈ l, e.1 ≠ id) :
    db'.snapshot.find id = db.snapshot.find id := by
  induction l generalizing db with
  | nil =>
    cases h
    rfl
  | cons item l ih =>
    obtain ⟨_, db1, hins, hrest⟩ := bind_ok_iff.1 h
    rw [ih hrest (forall_mem_cons.1 hid).2, insert_inv hins,
      find_setObject, if_neg (Ne.symm (hid item (mem_cons_self ..)))]

/-- A revert completes only when every object that is listed as modified or new exists.  A new
object is gone afterwards, unless it is also listed as removed. -/
lemma revert_inv {order : IterationOrder V} {u : UndoState V} (h : revert order u db = .ok () db')
    (id : ObjectId) : ((u.trace id).old ≠ none → db.snapshot.find id ≠ none) ∧
    ((u.trace id).isNew = true → db.snapshot.find id ≠ none) ∧
    ((u.trace id).isNew = true → (u.trace id).removed = none → db'.snapshot.find id = none) := by
  obtain ⟨_, db1, hold, h⟩ := bind_ok_iff.1 h
  obtain ⟨_, db2, hnew, h⟩ := bind_ok_iff.1 h
  obtain ⟨_, db3, hnext, hrem⟩ := bind_ok_iff.1 h
  obtain ⟨hpre, hsame⟩ := restoreOldValues_inv hold
  obtain ⟨hpre', hgone⟩ := removeNewIds_inv hnew
  have hlis : (u.trace id).isNew = true → id ∈ order.newIds.order u.newIds := by
    intro hid
    exact (order.newIds.perm _).mem_iff.2 (by simpa [trace] using hid)
  refine ⟨?_, ?_, ?_⟩
  · intro hid
    obtain ⟨v, hv⟩ := ne_none_iff_exists'.1 hid
    have hmem : (⟨id, v⟩ : Σ _ : ObjectId, V) ∈ order.oldValues.order u.oldValues.entries :=
      (order.oldValues.perm _).mem_iff.2 (AList.mem_lookup_iff.1 hv)
    exact hpre ⟨id, v⟩ hmem
  · intro hid hcur
    exact hpre' id (hlis hid) ((hsame id).2 hcur)
  · intro hid hno
    have hoth : ∀ e ∈ order.removed.order u.removed.entries, e.1 ≠ id := by
      rintro ⟨id', v⟩ he rfl
      have hlook : u.removed.lookup id' = some v :=
        AList.mem_lookup_iff.2 ((order.removed.perm _).mem_iff.1 he)
      rw [show u.removed.lookup id' = none from hno] at hlook
      cases hlook
    rw [insertRemoved_inv hrem hoth, restoreNextIds_inv hnext]
    exact hgone id (.inr (hlis hid))

/-! ## A session that has lost an object -/

/-- The newest undo state lists an object that the database has lost.  An object that is listed
as new was created below the next id, so its id is not given out again; one that is listed as
modified existed in `base`. -/
structure HasLost (db : ObjectDatabase schema) (base : Snapshot V) (id : ObjectId) : Prop where
  enabled : db.undoDb.disabled = false
  top : ∃ u rest, db.undoDb.stack = u :: rest ∧ (u.trace id).Lost (db.snapshot.find id) ∧
    ((u.trace id).old = none → ∃ n, db.snapshot.nextId id.index = some n ∧ id.inst < n) ∧
    ((u.trace id).old ≠ none → base.find id ≠ none)

variable {base : Snapshot V} {rest : List (UndoState V)}

lemma HasLost.not_undone (h : db.HasLost base id) (order : IterationOrder V) :
    ¬ ∃ db', undo order db = .ok () db' ∧ db'.snapshot.find = base.find := by
  rintro ⟨db', hundo, hfind⟩
  obtain ⟨u, rest, hst, hlost, -, hbase⟩ := h.top
  unfold undo at hundo
  split_ifs at hundo with hdis hact
  rw [hst] at hundo
  cases hrev : revert order u (db.mapUndo disable) with
  | error => simp [hrev] at hundo
  | ok =>
    simp only [hrev, EStateM.Result.ok.injEq, true_and] at hundo
    obtain ⟨hold, hnew, hgone⟩ := revert_inv hrev id
    rcases hlost with ⟨hcur, hisNew, -⟩ | ⟨hisOld, hrem, hcur | hisNew⟩
    · exact hnew hisNew hcur
    · exact hold hisOld hcur
    · -- the object is removed again, although it existed before the session
      apply hbase hisOld
      rw [← hfind, ← hundo, snapshot_mapUndo]
      exact hgone hisNew hrem

def NewBelowNext (db : ObjectDatabase schema) : Prop :=
  ∀ u rest, db.undoDb.stack = u :: rest → ∀ id ∈ u.newIds,
    ∃ n, db.snapshot.nextId id.index = some n ∧ id.inst < n

omit [DecidableEq κ] in
lemma newBelowNext_startUndoSession : db.startUndoSession.NewBelowNext := by
  rintro u rest hst id hid
  cases hst
  cases hid

lemma exec_newBelowNext (c : Call V) (hin : db.InSession base rest) (h : db.NewBelowNext) :
    (final (c.exec db)).NewBelowNext := by
  obtain ⟨top, htop, -⟩ := hin.top
  have hold := h top rest htop
  rintro u rest' hst id hid
  rcases Call.exec_inv c db with heq | ⟨i, n, item, hnext, -, hu, hs⟩ |
    ⟨a, obj, new, -, hu, hs, -⟩ | ⟨a, obj, -, hu, hs⟩
  · rw [heq] at hst ⊢
    exact h u rest' hst id hid
  · rw [hu, UndoDatabase.onCreate, record_cons hin.enabled htop] at hst
    cases hst
    rw [hs]
    simp only [nextId_setNextId, nextId_setObject]
    rcases (mem_newIds_onCreate top ⟨i, n⟩ id).1 hid with rfl | hmem
    · exact ⟨n + 1, if_pos rfl, Nat.lt_succ_self n⟩
    · obtain ⟨k, hk, hlt⟩ := hold id hmem
      split_ifs with hi
      · rw [hi, hnext, some_inj] at hk
        exact ⟨n + 1, rfl, by omega⟩
      · exact ⟨k, hk, hlt⟩
  · rw [hu, UndoDatabase.onModify, record_cons hin.enabled htop] at hst
    cases hst
    rw [newIds_onModify] at hid
    rw [hs]
    exact hold id hid
  · rw [hu, UndoDatabase.onRemove, record_cons hin.enabled htop] at hst
    cases hst
    rw [hs]
    exact hold id (newIds_onRemove_subset top a obj hid)

lemma exec_hasLost_of_collides {c : Call V} (h : db.InSession base rest) (hnext : db.NewBelowNext)
    (hc : c.Collides db) : ∃ id, (final (c.exec db)).HasLost base id := by
  cases c with
  | create i constructor | remove id => exact hc.elim
  | modify id m =>
    obtain ⟨obj, hobj, htaken⟩ := hc
    obtain ⟨u, hst, hcons, horig⟩ := h.top
    have hfits := hcons.fits id
    rw [hobj] at hfits
    rcases modify_cases id m db with ⟨e, -, hnone⟩ | ⟨obj', db', hobj', hundo, hcase⟩
    · rw [hobj] at hnone
      cases hnone
    rw [hobj] at hobj'
    cases hobj'
    rcases hcase with ⟨hfree, -⟩ | ⟨-, hs, e, he⟩
    · exact absurd htaken hfree
    have hfin : final ((Call.modify id m).exec db) = db' := by
      rw [Call.exec, he]
      rfl
    rw [UndoDatabase.onModify, record_cons h.enabled hst] at hundo
    rw [hfin]
    refine ⟨id, by rw [hundo]; exact h.enabled, u.onModify id obj, rest, by rw [hundo], ?_⟩
    rw [hs, find_setObject, if_pos rfl, trace_onModify, if_pos rfl]
    refine ⟨hfits.onModify_lost, ?_, ?_⟩
    · -- not listed as modified, so the object was created in this session
      intro hold
      have hnew : (u.trace id).isNew = true := by
        by_contra hnew
        simp [Trace.onModify, hnew] at hold
      exact hnext u rest hst id (by simpa [trace] using hnew)
    · intro hold
      have hnew : (u.trace id).isNew = false := by
        by_contra hnew
        rw [Bool.not_eq_false] at hnew
        rw [Trace.onModify, if_pos hnew] at hold
        exact hold (hfits.new hnew).2
      have hnew' : ((u.trace id).onModify obj).isNew = false := by
        simp [Trace.onModify, hnew]
      rw [← horig]
      change (u.trace id).original (db.snapshot.find id) ≠ none
      rw [hobj, ← (Trace.onModify_spec obj hfits).2]
      exact Trace.original_ne_none hnew' hold

lemma HasLost.exec (h : db.HasLost base id) (c : Call V) : (final (c.exec db)).HasLost base id := by
  obtain ⟨u, rest, hst, hlost, hnext, hbase⟩ := h.top
  rcases Call.exec_inv c db with heq | ⟨i, n, item, hn, hfree, hu, hs⟩ |
    ⟨a, obj, new, hobj, hu, hs, -⟩ | ⟨a, obj, hobj, hu, hs⟩
  · rwa [heq]
  · rw [UndoDatabase.onCreate, record_cons h.enabled hst] at hu
    refine ⟨by rw [hu]; exact h.enabled, u.onCreate ⟨i, n⟩, rest, by rw [hu], ?_⟩
    rw [hs, trace_onCreate]
    simp only [find_setNextId, find_setObject, nextId_setNextId, nextId_setObject]
    by_cases hid : id = ⟨i, n⟩
    · -- the id is given out again, so it is not below the next id
      subst hid
      have hold : (u.trace ⟨i, n⟩).old ≠ none := by
        intro hold
        obtain ⟨k, hk, hlt⟩ := hnext hold
        rw [hn, some_inj] at hk
        exact absurd hlt (by simp [← hk])
      rw [if_pos rfl, if_pos rfl]
      exact ⟨hlost.onCreate hold item, fun hnone => absurd hnone hold, fun _ => hbase hold⟩
    · rw [if_neg hid, if_neg hid]
      refine ⟨hlost, ?_, hbase⟩
      intro hold
      obtain ⟨k, hk, hlt⟩ := hnext hold
      split_ifs with hi
      · rw [hi, hn, some_inj] at hk
        exact ⟨n + 1, rfl, by omega⟩
      · exact ⟨k, hk, hlt⟩
  · rw [UndoDatabase.onModify, record_cons h.enabled hst] at hu
    refine ⟨by rw [hu]; exact h.enabled, u.onModify a obj, rest, by rw [hu], ?_⟩
    rw [hs, trace_onModify, find_setObject, nextId_setObject]
    by_cases hid : id = a
    · subst hid
      rw [hobj] at hlost
      rw [if_pos rfl, if_pos rfl]
      exact ⟨(hlost.onModify new).1, fun hnone => absurd hnone (hlost.onModify new).2,
        fun _ => hbase hlost.isNew_of_some.1⟩
    · rw [if_neg hid, if_neg hid]
      exact ⟨hlost, hnext, hbase⟩
  · rw [UndoDatabase.onRemove, record_cons h.enabled hst] at hu
    refine ⟨by rw [hu]; exact h.enabled, u.onRemove a obj, rest, by rw [hu], ?_⟩
    rw [hs, trace_onRemove, find_setObject, nextId_setObject]
    by_cases hid : id = a
    · subst hid
      rw [hobj] at hlost
      rw [if_pos rfl, if_pos rfl]
      exact ⟨hlost.onRemove.1, fun hnone => absurd hnone hlost.onRemove.2,
        fun _ => hbase hlost.isNew_of_some.1⟩
    · rw [if_neg hid, if_neg hid]
      exact ⟨hlost, hnext, hbase⟩

lemma HasLost.performAll (h : db.HasLost base id) (cs : List (Call V)) :
    (Call.performAll cs db).HasLost base id := by
  induction cs generalizing db with
  | nil => exact h
  | cons c cs ih => exact ih (h.exec c)

lemma performAll_hasLost {cs : List (Call V)} (hin : db.InSession base rest)
    (hnext : db.NewBelowNext) (hcs : ¬ Call.NoneCollides cs db) :
    ∃ id, (Call.performAll cs db).HasLost base id := by
  induction cs generalizing db with
  | nil => exact absurd trivial hcs
  | cons c cs ih =>
    by_cases hc : c.Collides db
    · obtain ⟨id, hlost⟩ := exec_hasLost_of_collides hin hnext hc
      exact ⟨id, hlost.performAll cs⟩
    · exact ih (Call.exec_inSession hin hc) (exec_newBelowNext c hin hnext)
        fun hrest => hcs ⟨hc, hrest⟩

/-! ## The results -/

/-- After any calls of a session, also such as threw, `undo` restores the objects exactly when no
call collided and no key is reused. -/
lemma undo_performAll_iff {db0 : ObjectDatabase schema} (cs : List (Call V))
    (order : IterationOrder V) (hen : db0.undoDb.disabled = false) :
    ∃ u rest, (Call.performAll cs db0.startUndoSession).undoDb.stack = u :: rest ∧
      ((∃ db', undo order (Call.performAll cs db0.startUndoSession) = .ok () db' ∧
          db'.findObject = db0.findObject) ↔ Call.NoneCollides cs db0.startUndoSession ∧
          ¬ KeyReused schema u.newIds (Call.performAll cs db0.startUndoSession).snapshot
            (order.oldValues.order u.oldValues.entries)) := by
  by_cases hcs : Call.NoneCollides cs db0.startUndoSession
  · have href := Call.performAll_refines (journal_refines hen).start hcs
    have hact : (Call.performAll cs db0.startUndoSession).undoDb.activeSessions ≠ 0 := by
      rw [Call.performAll_activeSessions]
      exact Nat.succ_ne_zero _
    obtain ⟨u, rest, hst, -⟩ := href.linked.cons_inv
    refine ⟨u, rest, hst, ?_⟩
    rw [and_iff_right hcs, ← href.undo_ok_iff rfl hact hst order]
    constructor
    · rintro ⟨db', hok, -⟩
      exact ⟨db', hok⟩
    · rintro ⟨db', hok⟩
      have hsnap := (href.undo_ok_inv rfl hact hst hok).1.current
      exact ⟨db', hok, congrArg find hsnap.symm⟩
  · rcases performAll_hasLost (startUndoSession_inSession hen)
      (newBelowNext_startUndoSession) hcs with ⟨id, hlost⟩
    obtain ⟨u, rest, hst, -⟩ := hlost.top
    refine ⟨u, rest, hst, ?_⟩
    constructor
    · intro hund
      exact absurd hund (hlost.not_undone order)
    · rintro ⟨hnone, -⟩
      exact absurd hnone hcs

/-- A session ends with a `modify` that throws.  Undoing it restores the id-to-object map exactly
when neither this modification nor an earlier one stored a value whose unique key another object
holds, and no key is reused. -/
theorem undo_after_failed_modify_iff (db0 db : ObjectDatabase schema) (cs : List (Call V))
    (id : ObjectId) (m : V → Modified V) (e : DbError) (order : IterationOrder V)
    (hen : db0.undoDb.disabled = false)
    (hfail : modify id m (Call.performAll cs db0.startUndoSession) = .error e db) :
    ∃ u rest, db.undoDb.stack = u :: rest ∧
      ((∃ db', undo order db = .ok () db' ∧ db'.findObject = db0.findObject) ↔
        Call.NoneCollides (cs ++ [.modify id m]) db0.startUndoSession ∧
          ¬ KeyReused schema u.newIds db.snapshot (order.oldValues.order u.oldValues.entries)) := by
  have hdb : Call.performAll (cs ++ [.modify id m]) db0.startUndoSession = db := by
    rw [Call.performAll, foldl_append]
    change final (modify id m (Call.performAll cs db0.startUndoSession)) = db
    rw [hfail]
    rfl
  rw [← hdb]
  exact undo_performAll_iff (cs ++ [.modify id m]) order hen

def throwAfterWrite : Nat → Modified Nat :=
  fun v => { value := v + 2, threw := true }

def collideWithEight : Nat → Modified Nat :=
  fun _ => { value := 8 }

theorem undo_after_throwing_callback : ∃ db, modify ⟨⟨1, 2⟩, 0⟩ throwAfterWrite
        (Call.performAll [.create ⟨1, 2⟩ fun _ => some 8] distinctNumbers.startUndoSession) =
          .error .callback db ∧ ∃ u rest, db.undoDb.stack = u :: rest ∧
        ((∃ db', undo (.forward Nat) db = .ok () db' ∧
            db'.findObject = distinctNumbers.findObject) ↔
          Call.NoneCollides ([.create ⟨1, 2⟩ fun _ => some 8] ++
              [.modify ⟨⟨1, 2⟩, 0⟩ throwAfterWrite]) distinctNumbers.startUndoSession ∧
            ¬ KeyReused (fun _ => [fun v : Nat => v]) u.newIds db.snapshot
              ((IterationOrder.forward Nat).oldValues.order u.oldValues.entries)) :=
  ⟨_, rfl, undo_after_failed_modify_iff distinctNumbers _ _ _ _ .callback _ rfl rfl⟩

/-- Object 0 is modified to the key of object 1: the container erases it, and `undo` does not find
it any more. -/
theorem undo_after_collision_throws : ∃ db db', modify ⟨⟨1, 2⟩, 0⟩ collideWithEight
        (Call.performAll [.create ⟨1, 2⟩ fun _ => some 8] distinctNumbers.startUndoSession) =
          .error .couldNotModifyObject db ∧
      undo (.forward Nat) db = .error (.unableToFindObject ⟨⟨1, 2⟩, 0⟩) db' :=
  ⟨_, _, rfl, rfl⟩

end ObjectDatabase

end Graphene.Db
