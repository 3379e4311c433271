import Graphene.Db.Undo

/-!
# What an undo state stands for

An undo state says about each object whether it is new, modified, removed or untouched: its `Trace`.  A
trace determines, from the present value of the object, the value before the recorded changes.  The
hooks and `merge` act on the trace of each object separately.  `UndoState.original` collects the
traces: the content that undoing the state should restore.
-/

namespace Graphene.Db

open Lib Snapshot UndoState

structure Trace (V : Type) where
  isNew : Bool
  old : Option V
  removed : Option V

namespace Trace

variable {V : Type}

/-- The value before the recorded changes, when the object now is `cur`. -/
def original (t : Trace V) (cur : Option V) : Option V :=
  if t.isNew then t.removed else t.old.or (t.removed.or cur)

/-- New and modified objects exist, removed ones do not, and no object is modified and also new or
removed. -/
structure Fits (t : Trace V) (cur : Option V) : Prop where
  new : t.isNew = true → cur ≠ none ∧ t.old = none
  old : t.old ≠ none → cur ≠ none ∧ t.removed = none
  removed : t.removed ≠ none → t.isNew = false → cur = none

def onCreate (t : Trace V) : Trace V :=
  { t with isNew := true }

def onModify (t : Trace V) (obj : V) : Trace V :=
  if t.isNew then t else { t with old := t.old.or (some obj) }

def onRemove (t : Trace V) (obj : V) : Trace V :=
  if t.isNew then { t with isNew := false }
  else { t with old := none, removed := t.old.or (t.removed.or (some obj)) }

variable {t : Trace V} {obj : V} {cur : Option V} (item : V)

lemma onCreate_spec (h : t.Fits none) :
    t.onCreate.Fits (some item) ∧ t.onCreate.original (some item) = t.original none := by
  obtain ⟨isNew, old, removed⟩ := t
  obtain ⟨hnew, hold, -⟩ := h
  have hnew' : isNew = false := by
    cases isNew with
    | false => rfl
    | true => exact absurd rfl (hnew rfl).1
  have hold' : old = none := by
    cases old with
    | none => rfl
    | some => exact absurd rfl (hold (by simp)).1
  subst hnew' hold'
  refine ⟨⟨by simp [onCreate], by simp [onCreate], by simp [onCreate]⟩, ?_⟩
  simp [onCreate, original]

lemma onModify_spec (h : t.Fits (some obj)) : (t.onModify obj).Fits (some item) ∧
      (t.onModify obj).original (some item) = t.original (some obj) := by
  obtain ⟨isNew, old, removed⟩ := t
  obtain ⟨hnew, hold, hrem⟩ := h
  cases isNew with
  | true =>
    -- a new object is not recorded again
    refine ⟨⟨fun _ => ⟨by simp, (hnew rfl).2⟩, ?_, ?_⟩, by simp [onModify, original]⟩
    · simpa [onModify] using hold
    · simp [onModify]
  | false =>
    have hrem' : removed = none := by
      cases removed with
      | none => rfl
      | some => simpa using hrem (by simp) rfl
    subst hrem'
    refine ⟨⟨by simp [onModify], by simp [onModify], by simp [onModify]⟩, ?_⟩
    simp [onModify, original]

lemma onRemove_spec (h : t.Fits (some obj)) :
    (t.onRemove obj).Fits none ∧ (t.onRemove obj).original none = t.original (some obj) := by
  obtain ⟨isNew, old, removed⟩ := t
  obtain ⟨hnew, hold, hrem⟩ := h
  cases isNew with
  | true =>
    -- a new object is forgotten
    have hold' : old = none := (hnew rfl).2
    subst hold'
    refine ⟨⟨by simp [onRemove], by simp [onRemove], by simp [onRemove]⟩, ?_⟩
    simp [onRemove, original]
  | false =>
    refine ⟨⟨by simp [onRemove], by simp [onRemove], by simp [onRemove]⟩, ?_⟩
    simp [onRemove, original]

/-- What is left of an object once its old value is written back and new objects are removed. -/
def reverted (t : Trace V) (cur : Option V) : Option V :=
  if t.isNew then none else t.old.or cur

lemma Fits.reverted_eq_none (h : t.Fits cur) (hrem : t.removed ≠ none) : t.reverted cur = none := by
  unfold reverted
  split_ifs with hnew
  · rfl
  · have hold : t.old = none := by
      by_contra hold
      exact hrem (h.old hold).2
    simpa [hold] using h.removed hrem (by simpa using hnew)

lemma Fits.original_eq (h : t.Fits cur) : t.original cur = t.removed.or (t.reverted cur) := by
  cases hrem : t.removed with
  | none => cases hnew : t.isNew <;> simp [original, reverted, hrem, hnew]
  | some =>
    have hold : t.old = none := by
      by_contra hold
      simpa [hrem] using (h.old hold).2
    cases hnew : t.isNew <;> simp [original, hrem, hnew, hold]

end Trace

namespace UndoState

variable {V : Type}

def trace (u : UndoState V) (id : ObjectId) : Trace V where
  isNew := decide (id ∈ u.newIds)
  old := u.oldValues.lookup id
  removed := u.removed.lookup id

/-- The content of the database before the changes recorded in `u`, when it now holds `cur`. -/
def original (u : UndoState V) (cur : Snapshot V) : Snapshot V where
  find := fun id => (u.trace id).original (cur.find id)
  nextId := fun i => (u.oldIndexNextIds.lookup i).or (cur.nextId i)

/-- The recorded objects are where the records say they are. -/
structure Consistent (u : UndoState V) (cur : Snapshot V) : Prop where
  fits : ∀ id, (u.trace id).Fits (cur.find id)
  registered : ∀ i, u.oldIndexNextIds.lookup i ≠ none → cur.nextId i ≠ none

lemma empty_consistent (cur : Snapshot V) : (empty : UndoState V).Consistent cur where
  fits := fun id => ⟨by simp [trace, empty], by simp [trace, empty], by simp [trace, empty]⟩
  registered := by simp [empty]

@[simp] lemma original_empty (cur : Snapshot V) : (empty : UndoState V).original cur = cur := by
  ext id v <;> simp [original, empty, trace, Trace.original]

/-! ## The hooks act on one trace -/

section

variable (u : UndoState V)

lemma trace_onCreate (id id' : ObjectId) :
    (u.onCreate id).trace id' = if id' = id then (u.trace id).onCreate else u.trace id' := by
  unfold onCreate
  by_cases hid : id' = id
  · subst hid
    split_ifs <;> simp_all [trace, insertNewId, Trace.onCreate]
  · split_ifs <;> simp [trace, insertNewId, hid]

lemma lookup_nextIds_onCreate (id : ObjectId) (i : IndexId) :
    (u.onCreate id).oldIndexNextIds.lookup i =
      (u.oldIndexNextIds.lookup i).or (if i = id.index then some id.inst else none) := by
  unfold onCreate
  by_cases hmem : id.index ∈ u.oldIndexNextIds
  · obtain ⟨n, hn⟩ := exists_lookup_of_mem hmem
    by_cases hi : i = id.index
    · subst hi
      simp [insertNewId, hmem, hn]
    · simp [insertNewId, hmem, hi]
  · by_cases hi : i = id.index
    · subst hi
      simp [insertNewId, hmem, AList.lookup_eq_none.2 hmem]
    · simp [insertNewId, hmem, hi]

lemma mem_newIds_onCreate (id id' : ObjectId) :
    id' ∈ (u.onCreate id).newIds ↔ id' = id ∨ id' ∈ u.newIds := by
  unfold onCreate
  split_ifs <;> simp [insertNewId]

@[simp] lemma newIds_onModify (id : ObjectId) (obj : V) : (u.onModify id obj).newIds = u.newIds := by
  unfold onModify
  split_ifs <;> rfl

lemma newIds_onRemove_subset (id : ObjectId) (obj : V) : (u.onRemove id obj).newIds ⊆ u.newIds := by
  unfold onRemove
  split_ifs
  · exact List.erase_subset
  · split <;> exact List.Subset.refl _
  · split <;> exact List.Subset.refl _

lemma trace_onModify (id id' : ObjectId) (obj : V) : (u.onModify id obj).trace id' =
      if id' = id then (u.trace id).onModify obj else u.trace id' := by
  unfold onModify
  by_cases hid : id' = id
  · subst hid
    by_cases hnew : id' ∈ u.newIds
    · simp [trace, Trace.onModify, hnew]
    · by_cases hold : id' ∈ u.oldValues
      · obtain ⟨v, hv⟩ := exists_lookup_of_mem hold
        simp [trace, Trace.onModify, hnew, hold, hv]
      · simp [trace, Trace.onModify, hnew, hold, AList.lookup_eq_none.2 hold]
  · by_cases hnew : id ∈ u.newIds
    · simp [hid, hnew]
    · by_cases hold : id ∈ u.oldValues <;> simp [trace, hid, hnew, hold]

lemma trace_onRemove (id id' : ObjectId) (obj : V) : (u.onRemove id obj).trace id' =
      if id' = id then (u.trace id).onRemove obj else u.trace id' := by
  unfold onRemove
  by_cases hnew : id ∈ u.newIds
  · by_cases hid : id' = id
    · subst hid
      simp [trace, Trace.onRemove, eraseNewId, u.newIds_nodup.mem_erase_iff, hnew]
    · simp [trace, hid, hnew, eraseNewId, u.newIds_nodup.mem_erase_iff]
  · cases hold : u.oldValues.lookup id with
    | some =>
      by_cases hid : id' = id
      · subst hid
        simp [trace, Trace.onRemove, hnew, hold]
      · simp [trace, hid, hnew]
    | none =>
      by_cases hrem : id ∈ u.removed
      · obtain ⟨v, hv⟩ := exists_lookup_of_mem hrem
        by_cases hid : id' = id
        · subst hid
          simp [trace, Trace.onRemove, hnew, hold, hrem, hv]
        · simp [trace, hid, hnew, hrem]
      · by_cases hid : id' = id
        · subst hid
          simp [trace, Trace.onRemove, hnew, hold, hrem, AList.lookup_eq_none.2 hrem]
        · simp [trace, hid, hnew, hrem]

end

/-! ## The hooks keep the original -/

variable {u : UndoState V} {cur : Snapshot V} {id : ObjectId}

lemma update_spec {u' : UndoState V} {obj : Option V} {t : Trace V} (hu : u.Consistent cur)
    (htrace : ∀ id', u'.trace id' = if id' = id then t else u.trace id')
    (hnext : u'.oldIndexNextIds = u.oldIndexNextIds)
    (ht : t.Fits obj ∧ t.original obj = (u.trace id).original (cur.find id)) :
    u'.Consistent (cur.setObject id obj) ∧ u'.original (cur.setObject id obj) = u.original cur := by
  refine ⟨⟨?_, ?_⟩, ?_⟩
  · intro id'
    rw [htrace, find_setObject]
    split_ifs with hid
    · exact ht.1
    · exact hu.fits id'
  · intro i hi
    rw [hnext] at hi
    exact hu.registered i hi
  · ext id' v
    · simp only [original, htrace, find_setObject]
      split_ifs with hid
      · rw [hid, ht.2]
      · rfl
    · simp [original, hnext]

variable {obj : V}

lemma onModify_spec (item : V) (hu : u.Consistent cur) (hobj : cur.find id = some obj) :
    (u.onModify id obj).Consistent (cur.setObject id (some item)) ∧
      (u.onModify id obj).original (cur.setObject id (some item)) = u.original cur := by
  have hnext : (u.onModify id obj).oldIndexNextIds = u.oldIndexNextIds := by
    unfold onModify
    split_ifs <;> rfl
  refine update_spec hu (u.trace_onModify id · obj) hnext ?_
  rw [hobj]
  exact Trace.onModify_spec item (hobj ▸ hu.fits id)

lemma onRemove_spec (hu : u.Consistent cur) (hobj : cur.find id = some obj) :
    (u.onRemove id obj).Consistent (cur.setObject id none) ∧
      (u.onRemove id obj).original (cur.setObject id none) = u.original cur := by
  have hnext : (u.onRemove id obj).oldIndexNextIds = u.oldIndexNextIds := by
    unfold onRemove
    split_ifs
    · rfl
    · split <;> rfl
    · split <;> rfl
  refine update_spec hu (u.trace_onRemove id · obj) hnext ?_
  rw [hobj]
  exact Trace.onRemove_spec (hobj ▸ hu.fits id)

lemma onCreate_spec (item : V) (hu : u.Consistent cur) (hfree : cur.find id = none)
    (hnext : cur.nextId id.index = some id.inst) (n : Nat) :
    let cur' := (cur.setObject id (some item)).setNextId id.index n
    (u.onCreate id).Consistent cur' ∧ (u.onCreate id).original cur' = u.original cur := by
  intro cur'
  have ht := Trace.onCreate_spec item (hfree ▸ hu.fits id)
  have hnei : ∀ i, cur'.nextId i = if i = id.index then some n else cur.nextId i := by
    intro i
    simp [cur', nextId_setNextId]
  refine ⟨⟨?_, ?_⟩, ?_⟩
  · intro id'
    simp only [cur', find_setNextId, find_setObject, trace_onCreate]
    split_ifs with hid
    · exact ht.1
    · exact hu.fits id'
  · intro i hi
    rw [hnei]
    rw [lookup_nextIds_onCreate] at hi
    by_cases hidx : i = id.index
    · simp [hidx]
    · simpa [hidx] using hu.registered i (by simpa [hidx] using hi)
  · ext id' v
    · simp only [cur', original, find_setNextId, find_setObject, trace_onCreate]
      split_ifs with hid
      · rw [hid, ht.2, hfree]
      · rfl
    · simp only [original, hnei, lookup_nextIds_onCreate]
      split_ifs with hi
      · subst hi
        simp [hnext]
      · simp

end UndoState

/-! ## Calls inside a session -/

namespace ObjectDatabase

variable {κ V : Type} {schema : Schema κ V}

/-- The newest undo state stands for `base`; the states below it are `rest`. -/
structure InSession (db : ObjectDatabase schema) (base : Snapshot V) (rest : List (UndoState V)) :
    Prop where
  enabled : db.undoDb.disabled = false
  top : ∃ u, db.undoDb.stack = u :: rest ∧ u.Consistent db.snapshot ∧ u.original db.snapshot = base

variable {db : ObjectDatabase schema}

lemma startUndoSession_inSession (hen : db.undoDb.disabled = false) :
    db.startUndoSession.InSession db.snapshot (db.undoDb.stack.take db.undoDb.maxSize) where
  enabled := hen
  top := ⟨.empty, rfl, empty_consistent _, original_empty _⟩

variable {base : Snapshot V} {rest : List (UndoState V)}

lemma InSession.record {db' : ObjectDatabase schema} {hook : UndoState V → UndoState V}
    (h : db.InSession base rest) (hundo : db'.undoDb = db.undoDb.record hook)
    (hoo : ∀ u : UndoState V, u.Consistent db.snapshot →
      (hook u).Consistent db'.snapshot ∧ (hook u).original db'.snapshot = u.original db.snapshot) :
    db'.InSession base rest := by
  obtain ⟨u, hstack, hcons, horig⟩ := h.top
  rw [UndoDatabase.record_cons h.enabled hstack] at hundo
  obtain ⟨hcons', horig'⟩ := hoo u hcons
  refine ⟨?_, hook u, ?_, hcons', ?_⟩
  · rw [hundo]
    exact h.enabled
  · rw [hundo]
  · rw [horig', horig]

namespace Call

/-- The call writes a value whose unique key another object holds; the object is then lost. -/
def Collides (c : Call V) (db : ObjectDatabase schema) : Prop :=
  match c with
  | modify id m => ∃ obj, db.snapshot.find id = some obj ∧
      db.snapshot.KeyTaken schema id (m obj).value
  | _ => False

variable [DecidableEq κ]

def NoneCollides : List (Call V) → ObjectDatabase schema → Prop
  | [], _ => True
  | c :: cs, db => ¬ c.Collides db ∧ NoneCollides cs (final (c.exec db))

/-- Everything a call can do, whether or not it throws: nothing, create an object under the next id,
change an object that exists (and lose it when the call collides), or remove one. -/
lemma exec_inv (c : Call V) (db : ObjectDatabase schema) : final (c.exec db) = db ∨
    (∃ i n item, db.snapshot.nextId i = some n ∧ db.snapshot.find ⟨i, n⟩ = none ∧
      (final (c.exec db)).undoDb = db.undoDb.onCreate ⟨i, n⟩ ∧ (final (c.exec db)).snapshot =
        (db.snapshot.setObject ⟨i, n⟩ (some item)).setNextId i (n + 1)) ∨
    (∃ id obj new, db.snapshot.find id = some obj ∧
      (final (c.exec db)).undoDb = db.undoDb.onModify id obj ∧
      (final (c.exec db)).snapshot = db.snapshot.setObject id new ∧
      (¬ c.Collides db → new ≠ none) ∧ ∀ w, new = some w → ∃ m, c = modify id m ∧ w = (m obj).value) ∨
    (∃ id obj, db.snapshot.find id = some obj ∧
      (final (c.exec db)).undoDb = db.undoDb.onRemove id obj ∧
      (final (c.exec db)).snapshot = db.snapshot.setObject id none) := by
  cases c with
  | create i constructor =>
    have hexec : final (exec (.create i constructor) db) =
        final (ObjectDatabase.create i constructor db) := by
      simp only [exec, bind, EStateM.bind]
      cases ObjectDatabase.create i constructor db <;> rfl
    rw [hexec]
    rcases create_cases (i := i) constructor db with ⟨e, he⟩ | ⟨n, item, db', he, hnext, hfree, hs, hu⟩
    · exact .inl (by rw [he]; rfl)
    · rw [he]
      exact .inr (.inl ⟨i, n, item, hnext, hfree, hu, hs⟩)
  | modify id m =>
    rcases modify_cases id m db with ⟨e, he, -⟩ | ⟨obj, db', hobj, hu, hcase⟩
    · exact .inl (by rw [exec, he]; rfl)
    · refine .inr (.inr (.inl ?_))
      rcases hcase with ⟨-, hs, he⟩ | ⟨htaken, hs, e, he⟩
      · have hfin : final (exec (.modify id m) db) = db' := by
          rw [exec, he]
          split_ifs <;> rfl
        rw [hfin]
        refine ⟨id, obj, _, hobj, hu, hs, by simp, fun w hw => ⟨m, rfl, ?_⟩⟩
        cases hw
        rfl
      · have hfin : final (exec (.modify id m) db) = db' := by
          rw [exec, he]
          rfl
        rw [hfin]
        exact ⟨id, obj, none, hobj, hu, hs, fun hno => absurd ⟨obj, hobj, htaken⟩ hno, by simp⟩
  | remove id =>
    rcases remove_cases id db with ⟨e, he, -⟩ | ⟨obj, db', he, hobj, hu, hs⟩
    · exact .inl (by rw [exec, he]; rfl)
    · rw [exec, he]
      exact .inr (Or.inr (.inr ⟨id, obj, hobj, hu, hs⟩))

/-- A call does nothing, or makes one change that a hook records.  When the call does not collide,
the hook keeps the original of every consistent undo state. -/
lemma exec_cases (c : Call V) (db : ObjectDatabase schema) : final (c.exec db) = db ∨
    ∃ hook, (final (c.exec db)).undoDb = db.undoDb.record hook ∧
      (¬ c.Collides db → ∀ u : UndoState V, u.Consistent db.snapshot →
        (hook u).Consistent (final (c.exec db)).snapshot ∧
        (hook u).original (final (c.exec db)).snapshot = u.original db.snapshot) := by
  rcases exec_inv c db with heq | ⟨i, n, item, hnext, hfree, hu, hs⟩ |
    ⟨id, obj, new, hobj, hu, hs, hnew, -⟩ | ⟨id, obj, hobj, hu, hs⟩
  · exact .inl heq
  · refine .inr ⟨(·.onCreate ⟨i, n⟩), hu, ?_⟩
    intro _ u hcons
    rw [hs]
    exact onCreate_spec item hcons hfree hnext (n + 1)
  · refine .inr ⟨(·.onModify id obj), hu, ?_⟩
    intro hno u hcons
    obtain ⟨item, rfl⟩ := Option.ne_none_iff_exists'.1 (hnew hno)
    rw [hs]
    exact onModify_spec item hcons hobj
  · refine .inr ⟨(·.onRemove id obj), hu, ?_⟩
    intro _ u hcons
    rw [hs]
    exact onRemove_spec hcons hobj

variable {c : Call V}

lemma exec_inSession (h : db.InSession base rest)
    (hc : ¬ c.Collides db) : (final (c.exec db)).InSession base rest := by
  rcases exec_cases c db with heq | ⟨hook, hundo, hspec⟩
  · rwa [heq]
  · exact h.record hundo (hspec hc)

lemma exec_settings (c : Call V) (db : ObjectDatabase schema) :
    (final (c.exec db)).undoDb.maxSize = db.undoDb.maxSize ∧
      (final (c.exec db)).undoDb.activeSessions = db.undoDb.activeSessions ∧
      (final (c.exec db)).undoDb.disabled = db.undoDb.disabled := by
  rcases exec_cases c db with heq | ⟨hook, hundo, -⟩
  · rw [heq]
    exact ⟨rfl, rfl, rfl⟩
  · rw [hundo]
    exact db.undoDb.record_settings hook

variable {db' : ObjectDatabase schema}

lemma not_collides_of_ok (h : c.exec db = .ok () db') : ¬ c.Collides db := by
  cases c with
  | create i constructor | remove id => exact fun hc => hc
  | modify id m =>
    rintro ⟨obj, hobj, htaken⟩
    rw [exec] at h
    rcases modify_cases id m db with ⟨e, he, -⟩ | ⟨obj', db'', hobj', -, hcase⟩
    · rw [he] at h
      cases h
    · rw [hobj, Option.some_inj] at hobj'
      subst hobj'
      rcases hcase with ⟨hfree, -, -⟩ | ⟨-, -, e, he⟩
      · exact hfree htaken
      · rw [he] at h
        cases h

omit [DecidableEq κ] in
lemma not_collides_of_no_keys (hkeys : ∀ i, schema i = []) (c : Call V)
    (db : ObjectDatabase schema) : ¬ c.Collides db := by
  cases c with
  | create i constructor | remove id => exact fun hc => hc
  | modify =>
    rintro ⟨obj, -, n, w, -, -, hclash⟩
    rw [hkeys] at hclash
    exact not_clash_nil _ _ hclash

lemma noneCollides_of_no_keys (hkeys : ∀ i, schema i = []) (cs : List (Call V))
    (db : ObjectDatabase schema) : NoneCollides cs db := by
  induction cs generalizing db with
  | nil => trivial
  | cons c cs ih => exact ⟨not_collides_of_no_keys hkeys c db, ih _⟩

lemma performAll_activeSessions (cs : List (Call V)) (db : ObjectDatabase schema) :
    (performAll cs db).undoDb.activeSessions = db.undoDb.activeSessions := by
  induction cs generalizing db with
  | nil => rfl
  | cons c cs ih => exact (ih _).trans (exec_settings c db).2.1

lemma execAll_cons_ok {cs : List (Call V)} (h : execAll (c :: cs) db = .ok () db') :
    ∃ db1, c.exec db = .ok () db1 ∧ execAll cs db1 = .ok () db' := by
  simp only [execAll, bind, EStateM.bind] at h
  cases hc : c.exec db with
  | ok a db1 => exact ⟨db1, rfl, by simpa [hc] using h⟩
  | error => simp [hc] at h

end Call

end ObjectDatabase

end Graphene.Db
