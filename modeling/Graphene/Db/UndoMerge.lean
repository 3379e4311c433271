import Graphene.Db.UndoInverse

/-!
# Merging undo states

`merge` folds the newest undo state into the one below it.  On the trace of one object this is the table
of the source.  The combinations that the source calls impossible are ruled out by the fact that an
index never hands out an id below its next id.
-/

namespace Graphene.Db

open Lib Option Snapshot IterationOrder

namespace Trace

variable {V : Type}

/-- `*+del`: the newer state removed the object, which had the value `obj` before. -/
def mergeRemoved (t : Trace V) (obj : V) : Trace V :=
  if t.isNew then { t with isNew := false }
  else { t with old := none, removed := t.old.or (some obj) }

/-- The table in `undo_database::merge`. -/
def merge (a b : Trace V) : Trace V :=
  let t := b.old.elim a a.onModify
  let t := if b.isNew then t.onCreate else t
  b.removed.elim t t.mergeRemoved

lemma mergeRemoved_eq_onRemove {t : Trace V} {obj : V} (h : t.Fits (some obj)) :
    t.mergeRemoved obj = t.onRemove obj := by
  obtain ⟨isNew, old, removed⟩ := t
  cases isNew with
  | true => rfl
  | false =>
    have hrem : removed = none := by
      cases removed with
      | none => rfl
      | some v => simpa using h.removed (by simp) rfl
    simp [mergeRemoved, onRemove, hrem]

/-- The merged trace stands for the value before the older one, provided no object is both new and
removed in the newer trace.  What the newer trace says is one more change recorded by the older. -/
lemma merge_spec {a b : Trace V} {cur : Option V} (ha : a.Fits (b.original cur)) (hb : b.Fits cur)
    (hfre : b.isNew = true → b.removed = none) :
    (a.merge b).Fits cur ∧ (a.merge b).original cur = a.original (b.original cur) := by
  obtain ⟨isNew, old, removed⟩ := b
  cases isNew with
  | true =>
    -- created: the older trace saw no object
    have hrem : removed = none := hfre rfl
    obtain ⟨hcur, hold⟩ := hb.new rfl
    simp only at hold
    subst hrem hold
    cases cur with
    | none => exact absurd rfl hcur
    | some v => exact onCreate_spec v ha
  | false =>
    cases removed with
    | some y =>
      -- removed: the older trace saw the value `y`
      have hcur : cur = none := hb.removed (by simp) rfl
      have hold : old = none := by
        by_contra hold
        simpa using (hb.old hold).2
      subst hcur hold
      have hmrg : a.merge ⟨false, none, some y⟩ = a.onRemove y := mergeRemoved_eq_onRemove ha
      rw [hmrg]
      exact onRemove_spec ha
    | none =>
      cases old with
      | some y =>
        -- modified: the older trace saw the value `y`
        cases cur with
        | none => exact absurd rfl (hb.old (by simp)).1
        | some v => exact onModify_spec v ha
      | none => exact ⟨ha, rfl⟩

end Trace

namespace UndoState

variable {V : Type}

/-! ## The loops of `merge` -/

variable (u : UndoState V) (i : IndexId)

lemma trace_insertNewId (id id' : ObjectId) :
    (u.insertNewId id).trace id' = if id' = id then (u.trace id').onCreate else u.trace id' := by
  by_cases hid : id' = id <;> simp [trace, insertNewId, Trace.onCreate, hid]

lemma trace_mergeRemoved (id id' : ObjectId) (obj : V) : (u.mergeRemoved id obj).trace id' =
      if id' = id then (u.trace id').mergeRemoved obj else u.trace id' := by
  unfold mergeRemoved
  by_cases hid : id' = id
  · subst hid
    by_cases hnew : id' ∈ u.newIds
    · simp [trace, Trace.mergeRemoved, eraseNewId, u.newIds_nodup.mem_erase_iff, hnew]
    · cases hold : u.oldValues.lookup id' <;> simp [trace, Trace.mergeRemoved, hnew, hold]
  · by_cases hnew : id ∈ u.newIds
    · simp [trace, hid, hnew, eraseNewId, u.newIds_nodup.mem_erase_iff]
    · cases hold : u.oldValues.lookup id <;> simp [trace, hid, hnew]

lemma trace_foldl_insertNewId (ids : List ObjectId) (u : UndoState V) (id : ObjectId) :
    (ids.foldl insertNewId u).trace id =
      if id ∈ ids then (u.trace id).onCreate else u.trace id := by
  induction ids generalizing u with
  | nil => simp
  | cons a ids ih =>
    rw [List.foldl_cons, ih, trace_insertNewId]
    by_cases ha : id = a <;> by_cases hin : id ∈ ids <;> simp [ha, hin, Trace.onCreate]

@[simp] lemma trace_mergeNextId (n : Nat) (id : ObjectId) :
    (u.mergeNextId i n).trace id = u.trace id := by
  unfold mergeNextId
  split_ifs <;> rfl

lemma foldl_unchanged {S T E : Type} (view : S → T) (body : S → E → S)
    (hbody : ∀ s e, view (body s e) = view s) (l : List E) (s : S) :
    view (l.foldl body s) = view s := by
  induction l generalizing s with
  | nil => rfl
  | cons e l ih => exact (ih _).trans (hbody s e)

lemma trace_merge (a b : UndoState V) (id : ObjectId) :
    (a.merge b).trace id = (a.trace id).merge (b.trace id) := by
  have hold := foldl_entries_view trace (fun p e => p.mergeOldValue e.1 e.2) Trace.onModify
    (fun s e i => by
      rw [show s.mergeOldValue e.1 e.2 = s.onModify e.1 e.2 from rfl, trace_onModify]
      split_ifs with h
      · rw [h]
      · rfl)
    b.oldValues a id
  have hrem := foldl_entries_view trace (fun p e => p.mergeRemoved e.1 e.2) Trace.mergeRemoved
    (fun s e i => trace_mergeRemoved s e.1 i e.2) b.removed
  simp only [merge]
  rw [hrem, foldl_unchanged (fun u : UndoState V => u.trace id)
      (fun p (e : Σ _ : IndexId, Nat) => p.mergeNextId e.1 e.2)
      (fun s e => trace_mergeNextId s e.1 e.2 id),
    trace_foldl_insertNewId, hold]
  simp only [Trace.merge, trace, decide_eq_true_eq]

lemma lookup_nextIds_mergeNextId (j : IndexId) (n : Nat) :
    (u.mergeNextId i n).oldIndexNextIds.lookup j =
      if j = i then (u.oldIndexNextIds.lookup j).or (some n) else u.oldIndexNextIds.lookup j := by
  unfold mergeNextId
  by_cases hmem : i ∈ u.oldIndexNextIds
  · obtain ⟨m, hm⟩ := exists_lookup_of_mem hmem
    by_cases hj : j = i
    · subst hj
      simp [hmem, hm]
    · simp [hmem, hj]
  · by_cases hj : j = i
    · subst hj
      simp [hmem, AList.lookup_eq_none.2 hmem]
    · simp [hmem, hj]

lemma lookup_nextIds_merge (a b : UndoState V) (i : IndexId) : (a.merge b).oldIndexNextIds.lookup i =
      (a.oldIndexNextIds.lookup i).or (b.oldIndexNextIds.lookup i) := by
  have hnext := foldl_entries_view (fun (u : UndoState V) j => u.oldIndexNextIds.lookup j)
    (fun p (e : Σ _ : IndexId, Nat) => p.mergeNextId e.1 e.2) (fun o n => o.or (some n))
    (fun s e j => lookup_nextIds_mergeNextId s e.1 j e.2) b.oldIndexNextIds
  simp only [merge]
  rw [foldl_unchanged (fun u : UndoState V => u.oldIndexNextIds)
      (fun p (e : Σ _ : ObjectId, V) => p.mergeRemoved e.1 e.2) ?_, hnext,
    foldl_unchanged (fun u : UndoState V => u.oldIndexNextIds) insertNewId (fun _ _ => rfl),
    foldl_unchanged (fun u : UndoState V => u.oldIndexNextIds)
      (fun p (e : Σ _ : ObjectId, V) => p.mergeOldValue e.1 e.2) ?_]
  · cases b.oldIndexNextIds.lookup i <;> simp
  · intro u e
    simp only [mergeOldValue]
    split_ifs <;> rfl
  · intro u e
    simp only [mergeRemoved]
    split_ifs
    · rfl
    · split <;> rfl

lemma merge_spec {a b : UndoState V} {cur : Snapshot V} (ha : a.Consistent (b.original cur))
    (hb : b.Consistent cur) (hfre : ∀ id ∈ b.newIds, id ∉ b.removed) :
    (a.merge b).Consistent cur ∧ (a.merge b).original cur = a.original (b.original cur) := by
  have hspec : ∀ id, ((a.merge b).trace id).Fits (cur.find id) ∧
      ((a.merge b).trace id).original (cur.find id) =
        (a.trace id).original ((b.trace id).original (cur.find id)) := by
    intro id
    rw [trace_merge]
    refine Trace.merge_spec (ha.fits id) (hb.fits id) ?_
    intro hnew
    have hnot := hfre id (by simpa [trace] using hnew)
    exact AList.lookup_eq_none.2 hnot
  refine ⟨⟨fun id => (hspec id).1, ?_⟩, ?_⟩
  · intro i hi
    rw [lookup_nextIds_merge] at hi
    by_cases hbi : b.oldIndexNextIds.lookup i = none
    · have hai : a.oldIndexNextIds.lookup i ≠ none := by simpa [hbi] using hi
      simpa [original, hbi] using ha.registered i hai
    · exact hb.registered i hbi
  · apply Snapshot.ext
    · funext id
      exact (hspec id).2
    · funext i
      simp only [original, lookup_nextIds_merge]
      cases a.oldIndexNextIds.lookup i <;> simp

end UndoState

/-! ## Fresh ids -/

def Snapshot.IdsBelowNext {V : Type} (s : Snapshot V) : Prop :=
  ∀ id n, s.find id ≠ none → s.nextId id.index = some n → id.inst < n

namespace ObjectDatabase

variable {κ V : Type} {schema : Schema κ V}

/-- Since the session began in `base`, ids only grew, and the new objects have new ids. -/
structure FreshSince (base : Snapshot V) (db : ObjectDatabase schema) : Prop where
  below : db.snapshot.IdsBelowNext
  grown : ∀ i n, base.nextId i = some n → ∃ m, db.snapshot.nextId i = some m ∧ n ≤ m
  new : ∀ u rest, db.undoDb.stack = u :: rest → ∀ id ∈ u.newIds, ∀ n,
    base.nextId id.index = some n → n ≤ id.inst

variable {db : ObjectDatabase schema} {base s : Snapshot V} {rest : List (UndoState V)}

lemma startUndoSession_freshSince (h : db.snapshot.IdsBelowNext) :
    FreshSince db.snapshot db.startUndoSession where
  below := h
  grown := fun i n hn => ⟨n, hn, le_rfl⟩
  new := by
    intro u rest hst id hid
    cases hst
    simp [UndoState.empty] at hid

variable {db' : ObjectDatabase schema}

lemma FreshSince.setObject {id : ObjectId} {new : Option V} {hook : UndoState V → UndoState V}
    (h : FreshSince base db) (hin : db.InSession s rest) (hobj : db.snapshot.find id ≠ none)
    (hs : db'.snapshot = db.snapshot.setObject id new) (hundo : db'.undoDb = db.undoDb.record hook)
    (hhook : ∀ (u : UndoState V) id', id' ∈ (hook u).newIds → id' ∈ u.newIds) :
    FreshSince base db' where
  below := by
    intro id' n hfind hn
    rw [hs] at hfind hn
    rw [find_setObject] at hfind
    refine h.below id' n ?_ hn
    split_ifs at hfind with hid
    · exact hid ▸ hobj
    · exact hfind
  grown := by
    rw [hs]
    exact h.grown
  new := by
    intro u rest' hst id' hid'
    obtain ⟨top, htop, -, -⟩ := hin.top
    rw [hundo, UndoDatabase.record_cons hin.enabled htop] at hst
    cases hst
    exact h.new top rest htop id' (hhook top id' hid')

variable [DecidableEq κ]

lemma FreshSince.exec (h : FreshSince base db) (hin : db.InSession s rest) (c : Call V) :
    FreshSince base (final (c.exec db)) := by
  rcases Call.exec_inv c db with heq | ⟨i, n, item, hnext, -, hundo, hs⟩ |
    ⟨id, obj, new, hobj, hundo, hs, -⟩ | ⟨id, obj, hobj, hundo, hs⟩
  · rwa [heq]
  · -- the new object takes the next id, which then lies above it
    have hnei : ∀ j, (final (c.exec db)).snapshot.nextId j =
        if j = i then some (n + 1) else db.snapshot.nextId j := by
      intro j
      rw [hs, nextId_setNextId]
      rfl
    refine ⟨?_, ?_, ?_⟩
    · intro id' m hfind hm
      rw [hnei] at hm
      rw [hs, find_setNextId, find_setObject] at hfind
      by_cases hid : id' = ⟨i, n⟩
      · subst hid
        have hm' : n + 1 = m := by simpa using hm
        exact hm' ▸ Nat.lt_succ_self n
      · rw [if_neg hid] at hfind
        split_ifs at hm with hi
        · have hlt := h.below id' n hfind (hi ▸ hnext)
          have hm' : n + 1 = m := by simpa using hm
          omega
        · exact h.below id' m hfind hm
    · intro j k hk
      obtain ⟨m, hm, hle⟩ := h.grown j k hk
      rw [hnei]
      by_cases hj : j = i
      · subst hj
        rw [hnext, some_inj] at hm
        exact ⟨n + 1, by simp, by omega⟩
      · exact ⟨m, by rw [if_neg hj, hm], hle⟩
    · intro u rest' hst id' hid' k hk
      obtain ⟨top, htop, -, -⟩ := hin.top
      rw [hundo, UndoDatabase.onCreate, UndoDatabase.record_cons hin.enabled htop] at hst
      cases hst
      rcases (top.mem_newIds_onCreate ⟨i, n⟩ id').1 hid' with rfl | hold
      · obtain ⟨m, hm, hle⟩ := h.grown i k hk
        rw [hnext, some_inj] at hm
        exact hm ▸ hle
      · exact h.new top rest htop id' hold k hk
  · refine h.setObject hin (by rw [hobj]; exact some_ne_none _) hs hundo ?_
    intro u id' hid'
    simpa using hid'
  · refine h.setObject hin (by rw [hobj]; exact some_ne_none _) hs hundo ?_
    intro u id' hid'
    exact u.newIds_onRemove_subset id obj hid'

lemma FreshSince.execAll {cs : List (Call V)} (h : FreshSince base db) (hin : db.InSession s rest)
    (hrun : Call.execAll cs db = .ok () db') : FreshSince base db' := by
  induction cs generalizing db with
  | nil =>
    cases hrun
    exact h
  | cons c cs ih =>
    obtain ⟨db1, hc, hcs⟩ := Call.execAll_cons_ok hrun
    have hfin : final (c.exec db) = db1 := by rw [hc]; rfl
    have hstep := h.exec hin c
    have hin' := Call.exec_inSession hin (Call.not_collides_of_ok hc)
    rw [hfin] at hstep hin'
    exact ih hstep hin' hcs

omit [DecidableEq κ] in
lemma FreshSince.new_not_removed {base : ObjectDatabase schema} {u : UndoState V}
    (hbase : base.snapshot.IdsBelowNext) (h : FreshSince base.snapshot db)
    (hst : db.undoDb.stack = u :: rest) (horig : u.original db.snapshot = base.snapshot) :
    ∀ id ∈ u.newIds, id ∉ u.removed := by
  intro id hnew hrem
  obtain ⟨v, hv⟩ := exists_lookup_of_mem hrem
  have hfind : base.snapshot.find id = some v := by
    rw [← horig]
    simp [UndoState.original, Trace.original, UndoState.trace, hnew, hv]
  obtain ⟨n, hn⟩ := ne_none_iff_exists'.1 (registered_of_find hfind)
  have hlt : id.inst < n := hbase id n (by rw [hfind]; exact some_ne_none _) hn
  have hle : n ≤ id.inst := h.new u rest hst id hnew n hn
  omega

/-! ## Two adjacent sessions -/

variable {db0 db1 db2 : ObjectDatabase schema} {csA csB : List (Call V)} {a b : UndoState V}

lemma nested_sessions (hen : db0.undoDb.disabled = false) (hmax : 0 < db0.undoDb.maxSize)
    (hA : Call.execAll csA db0.startUndoSession = .ok () db1)
    (hB : Call.execAll csB db1.startUndoSession = .ok () db2) :
    db2.Refines ⟨db2.snapshot, [db1.snapshot, db0.snapshot], db0.undoDb.maxSize⟩ := by
  have hrefA := Call.execAll_refines (journal_refines hen).start hA
  have hrefB := Call.execAll_refines hrefA.start hB
  cases hm : db0.undoDb.maxSize with
  | zero => omega
  | succ m => simpa [Journal.start, Journal.write, journal, hm] using hrefB

/-- What `merge` does to the two newest states. -/
def mergeTop (db : ObjectDatabase schema) (m : UndoState V) (rest : List (UndoState V)) :
    ObjectDatabase schema :=
  db.mapUndo fun u => { u with stack := m :: rest, activeSessions := u.activeSessions - 1 }

omit [DecidableEq κ] in
lemma merge_eq (hst : db.undoDb.stack = b :: a :: rest)
    (hact : db.undoDb.activeSessions ≠ 0) : merge db = .ok () (db.mergeTop (a.merge b) rest) := by
  simp [merge, mergeTop, hst, hact]

lemma merged_refines (hen : db0.undoDb.disabled = false) (hids : db0.snapshot.IdsBelowNext)
    (hA : Call.execAll csA db0.startUndoSession = .ok () db1)
    (hB : Call.execAll csB db1.startUndoSession = .ok () db2)
    (href : db2.Refines ⟨db2.snapshot, [db1.snapshot, db0.snapshot], db0.undoDb.maxSize⟩)
    (hst : db2.undoDb.stack = b :: a :: rest) (hconsA : a.Consistent db1.snapshot)
    (hconsB : b.Consistent db2.snapshot) (horigA : a.original db1.snapshot = db0.snapshot)
    (horigB : b.original db2.snapshot = db1.snapshot) : (db2.mergeTop (a.merge b) rest).Refines
      ⟨db2.snapshot, [db0.snapshot], db0.undoDb.maxSize⟩ := by
  have hfra := (startUndoSession_freshSince hids).execAll (startUndoSession_inSession hen) hA
  have henA : db1.undoDb.disabled = false :=
    (Call.execAll_refines (journal_refines hen).start hA).enabled
  have hfrb := (startUndoSession_freshSince hfra.below).execAll
    (startUndoSession_inSession henA) hB
  have hspec := UndoState.merge_spec (horigB ▸ hconsA) hconsB
    (hfrb.new_not_removed hfra.below hst horigB)
  rw [horigB, horigA] at hspec
  refine ⟨href.enabled, rfl, href.bound, ?_⟩
  exact ⟨hspec.1, hspec.2, ⟨db0, rfl⟩, by simp [Linked]⟩

/-- Undoing the merged state gives the same result as undoing the newer state and then the older
one, for every object and every next id, exactly when none of the three undo calls meets a reused
key.  In particular the two always agree when the indexes have no key besides the id. -/
theorem merge_composes_iff (db0 db1 db2 : ObjectDatabase schema) (csA csB : List (Call V))
    (orderA orderB orderM : IterationOrder V) (hen : db0.undoDb.disabled = false)
    (hmax : 0 < db0.undoDb.maxSize) (hids : db0.snapshot.IdsBelowNext)
    (hA : Call.execAll csA db0.startUndoSession = .ok () db1)
    (hB : Call.execAll csB db1.startUndoSession = .ok () db2) :
    ∃ b a rest, db2.undoDb.stack = b :: a :: rest ∧
      ((∃ dbm db' db1' db0', merge db2 = .ok () dbm ∧ undo orderM dbm = .ok () db' ∧
          undo orderB db2 = .ok () db1' ∧ undo orderA db1' = .ok () db0' ∧
          db'.snapshot = db0'.snapshot) ↔ ¬ KeyReused schema b.newIds db2.snapshot
            (orderB.oldValues.order b.oldValues.entries) ∧ ¬ KeyReused schema a.newIds db1.snapshot
            (orderA.oldValues.order a.oldValues.entries) ∧
          ¬ KeyReused schema (a.merge b).newIds db2.snapshot
            (orderM.oldValues.order (a.merge b).oldValues.entries)) := by
  have href := nested_sessions hen hmax hA hB
  have hactiveA : db1.undoDb.activeSessions = db0.undoDb.activeSessions + 1 :=
    Call.execAll_activeSessions hA
  have hactiveB : db2.undoDb.activeSessions = db1.undoDb.activeSessions + 1 :=
    Call.execAll_activeSessions hB
  -- the two newest states and what they stand for
  obtain ⟨b, us, hst, hconsB, horigB, -, hlinked⟩ := href.linked.cons_inv
  obtain ⟨a, rest, rfl, hconsA, horigA, -, -⟩ := hlinked.cons_inv
  have hmerged := merged_refines hen hids hA hB href hst hconsA hconsB horigA horigB
  have hactive2 : db2.undoDb.activeSessions ≠ 0 := by omega
  have hactiveM : (db2.mergeTop (a.merge b) rest).undoDb.activeSessions ≠ 0 := by
    simp only [mergeTop, undoDb_mapUndo]
    omega
  refine ⟨b, a, rest, hst, ?_⟩
  rw [← href.undo_ok_iff rfl hactive2 hst orderB]
  constructor
  · rintro ⟨dbm, db', db1', db0', hm, hundoM, hundoB, hundoA, -⟩
    rw [merge_eq hst hactive2] at hm
    cases hm
    obtain ⟨href1, hst1, hact1⟩ := href.undo_ok_inv rfl hactive2 hst hundoB
    have hiff := href1.undo_ok_iff rfl (by omega) hst1 orderA
    rw [← href1.current] at hiff
    exact ⟨⟨db1', hundoB⟩, hiff.1 ⟨db0', hundoA⟩,
      (hmerged.undo_ok_iff rfl hactiveM rfl orderM).1 ⟨db', hundoM⟩⟩
  · rintro ⟨⟨db1', hundoB⟩, hrA, hrM⟩
    obtain ⟨href1, hst1, hact1⟩ := href.undo_ok_inv rfl hactive2 hst hundoB
    have hiff := href1.undo_ok_iff rfl (by omega) hst1 orderA
    rw [← href1.current] at hiff
    obtain ⟨db0', hundoA⟩ := hiff.2 hrA
    obtain ⟨db', hundoM⟩ := (hmerged.undo_ok_iff rfl hactiveM rfl orderM).2 hrM
    refine ⟨_, db', db1', db0', merge_eq hst hactive2, hundoM, hundoB, hundoA, ?_⟩
    -- both runs end in the content before the older session
    rw [← (hmerged.undo_ok_inv rfl hactiveM rfl hundoM).1.current,
      ← (href1.undo_ok_inv rfl (by omega) hst1 hundoA).1.current]

omit [DecidableEq κ] in
lemma single_idsBelowNext (i : IndexId) (v : V) (maxSize : Nat) :
    (single schema i v maxSize).snapshot.IdsBelowNext := by
  rintro ⟨j, m⟩ n hfind hn
  by_cases hj : j = i
  · subst hj
    have hn' : n = 1 := by simpa [single, getNextId] using hn.symm
    by_cases hm : m = 0
    · simp [hm, hn']
    · simp [single, findObject, MultiIndex.find_put, hm] at hfind
  · simp [single, findObject, hj] at hfind

/-- An object is modified in the older session, and another one created in the newer. -/
theorem merge_composes_iff_distinctNumbers : ∃ db1 db2,
      Call.execAll [.modify ⟨⟨1, 2⟩, 0⟩ fun v => { value := v + 1 }]
        distinctNumbers.startUndoSession = .ok () db1 ∧
      Call.execAll [.create ⟨1, 2⟩ fun _ => some 9] db1.startUndoSession = .ok () db2 ∧
      ∃ b a rest, db2.undoDb.stack = b :: a :: rest ∧
        ((∃ dbm db' db1' db0', merge db2 = .ok () dbm ∧ undo (.forward Nat) dbm = .ok () db' ∧
            undo (.forward Nat) db2 = .ok () db1' ∧ undo (.forward Nat) db1' = .ok () db0' ∧
            db'.snapshot = db0'.snapshot) ↔
          ¬ KeyReused (fun _ => [fun v : Nat => v]) b.newIds db2.snapshot
              ((forward Nat).oldValues.order b.oldValues.entries) ∧
            ¬ KeyReused (fun _ => [fun v : Nat => v]) a.newIds db1.snapshot
              ((forward Nat).oldValues.order a.oldValues.entries) ∧
            ¬ KeyReused (fun _ => [fun v : Nat => v]) (a.merge b).newIds db2.snapshot
              ((forward Nat).oldValues.order (a.merge b).oldValues.entries)) :=
  ⟨_, _, rfl, rfl, merge_composes_iff distinctNumbers _ _
    [.modify ⟨⟨1, 2⟩, 0⟩ fun v => { value := v + 1 }] [.create ⟨1, 2⟩ fun _ => some 9]
    (.forward Nat) (.forward Nat) (.forward Nat) rfl (by decide)
    (single_idsBelowNext _ _ _) rfl rfl⟩

/-- The older session gives up a key, the newer one uses it again. -/
theorem merge_throws_where_two_undos_complete : ∃ db1 db2 dbm db' db1' db0',
      Call.execAll [.modify ⟨⟨1, 2⟩, 0⟩ fun v => { value := v + 1 }]
        distinctNumbers.startUndoSession = .ok () db1 ∧
      Call.execAll [.create ⟨1, 2⟩ fun _ => some 7] db1.startUndoSession = .ok () db2 ∧
      undo (.forward Nat) db2 = .ok () db1' ∧ undo (.forward Nat) db1' = .ok () db0' ∧
      merge db2 = .ok () dbm ∧ undo (.forward Nat) dbm = .error .couldNotModifyObject db' :=
  ⟨_, _, _, _, _, _, rfl, rfl, rfl, rfl, rfl, rfl⟩

end ObjectDatabase

end Graphene.Db
