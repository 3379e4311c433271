import Graphene.Db.UndoTracking

/-!
# Reverting one undo state

`undo` and `pop_commit` revert the newest undo state in four loops, of which only the first can fail: it
writes the old value of each modified object while the objects created in the session still exist and
the modified objects that come later still hold their present values.  If one of these holds a unique
key of the value written back (`KeyReused`), the loop throws.
-/

namespace Graphene.Db

open Lib List Snapshot
open UndoState (trace)
open Traversal (dlookup_order dlookup_cons_or)

namespace ObjectDatabase

variable {κ V : Type} {schema : Schema κ V}

/-- `b` is an object of the index of `a` whose present value holds a unique key of `v`. -/
def HoldsKey (schema : Schema κ V) (cur : Snapshot V) (a : ObjectId) (v : V) (b : ObjectId) : Prop :=
  b.index = a.index ∧ ∃ w, cur.find b = some w ∧ Clash (schema a.index) v w

/-- When the modified objects are restored in the order `l`, an object created in the session, or
a modified object that is restored later, still holds a unique key of the value written back. -/
def KeyReused (schema : Schema κ V) (newIds : List ObjectId) (cur : Snapshot V)
    (l : List (Σ _ : ObjectId, V)) : Prop :=
  (∃ e ∈ l, ∃ b ∈ newIds, HoldsKey schema cur e.1 e.2 b) ∨
    ¬ l.Pairwise fun e e' => ¬ HoldsKey schema cur e.1 e.2 e'.1

variable {id : ObjectId} {v : V} {base : Snapshot V} {newIds : List ObjectId} {cur : Snapshot V}
    {l : List (Σ _ : ObjectId, V)}

lemma keyTaken_iff_holdsKey {s : Snapshot V} :
    s.KeyTaken schema id v ↔ ∃ b, b ≠ id ∧ HoldsKey schema s id v b := by
  constructor
  · rintro ⟨n, w, hn, hw, hc⟩
    refine ⟨⟨id.index, n⟩, ?_, rfl, w, hw, hc⟩
    intro h
    exact hn (congrArg ObjectId.inst h)
  · rintro ⟨⟨j, n⟩, hne, hj, w, hw, hc⟩
    simp only at hj
    subst hj
    refine ⟨n, w, ?_, hw, hc⟩
    intro h
    exact hne (by rw [h])

lemma not_holdsKey_of_unique {a b : ObjectId} (hbase : base.UniqueKeys schema)
    (ha : base.find a = some v) (hab : b ≠ a) : ¬ HoldsKey schema base a v b := by
  intro h
  exact hbase a v ha (keyTaken_iff_holdsKey.2 ⟨b, hab, h⟩)

lemma keyReused_cons {e : Σ _ : ObjectId, V} : KeyReused schema newIds cur (e :: l) ↔
      ((∃ b ∈ newIds, HoldsKey schema cur e.1 e.2 b) ∨
        (∃ e' ∈ l, HoldsKey schema cur e.1 e.2 e'.1)) ∨ KeyReused schema newIds cur l := by
  simp only [KeyReused, mem_cons, pairwise_cons, exists_eq_or_imp]
  grind

lemma keyReused_congr {cur' : Snapshot V} (hnew : ∀ b ∈ newIds, cur'.find b = cur.find b)
    (hl : ∀ e ∈ l, cur'.find e.1 = cur.find e.1) :
    KeyReused schema newIds cur' l ↔ KeyReused schema newIds cur l := by
  have hkey : ∀ (e : Σ _ : ObjectId, V) b, cur'.find b = cur.find b →
      (HoldsKey schema cur' e.1 e.2 b ↔ HoldsKey schema cur e.1 e.2 b) := by
    intro e b hb
    simp [HoldsKey, hb]
  induction l with
  | nil => simp [KeyReused]
  | cons e l ih =>
    rw [keyReused_cons, keyReused_cons]
    refine or_congr (or_congr ?_ ?_) (ih (forall_mem_cons.1 hl).2)
    · exact exists_congr fun b => and_congr_right fun hb => hkey e b (hnew b hb)
    · exact exists_congr fun e' => and_congr_right fun he' =>
        hkey e e'.1 (hl e' (mem_cons_of_mem _ he'))

lemma not_keyReused_of_no_keys (hkeys : ∀ i, schema i = []) : ¬ KeyReused schema newIds cur l := by
  have hno : ∀ a v b, ¬ HoldsKey schema cur a v b := by
    rintro a v b ⟨-, w, -, hc⟩
    rw [hkeys] at hc
    exact not_clash_nil _ _ hc
  rintro (⟨e, -, b, -, hholds⟩ | hpair)
  · exact hno _ _ _ hholds
  · exact hpair (pairwise_of_forall fun e e' => hno _ _ _)

variable [DecidableEq κ]

/-! ## First loop -/

variable {db : ObjectDatabase schema}

lemma restoreOldValues_cons (rest : List (Σ _ : ObjectId, V))
    (hpre : db.snapshot.find id ≠ none) (hdis : db.undoDb.disabled = true) :
    (db.snapshot.KeyTaken schema id v ∧
      ∃ e db', restoreOldValues (⟨id, v⟩ :: rest) db = .error e db') ∨
    (¬ db.snapshot.KeyTaken schema id v ∧ ∃ db1, db1.undoDb = db.undoDb ∧
      db1.snapshot = db.snapshot.setObject id (some v) ∧
      restoreOldValues (⟨id, v⟩ :: rest) db = restoreOldValues rest db1) := by
  rcases modify_cases id (fun _ => { value := v }) db with
    ⟨e, -, hnone⟩ | ⟨obj, db1, -, hundo, hcase⟩
  · exact absurd hnone hpre
  · rcases hcase with ⟨hfree, hs, he⟩ | ⟨htaken, -, e, he⟩
    · refine .inr ⟨hfree, db1, ?_, hs, ?_⟩
      · rw [hundo]
        exact UndoDatabase.record_of_disabled hdis _
      · simp [restoreOldValues, bind, EStateM.bind, he]
    · exact .inl ⟨htaken, e, db1, by simp [restoreOldValues, bind, EStateM.bind, he]⟩

/-- The situation in the middle of the first loop: `l` is still to be restored, and every object
outside `l` and the new ones has its original value again. -/
structure Restoring (schema : Schema κ V) (base : Snapshot V) (newIds : List ObjectId)
    (l : List (Σ _ : ObjectId, V)) (cur : Snapshot V) : Prop where
  unique : base.UniqueKeys schema
  nodup : l.NodupKeys
  notNew : ∀ e ∈ l, e.1 ∉ newIds
  present : ∀ e ∈ l, cur.find e.1 ≠ none
  original : ∀ e ∈ l, base.find e.1 = some e.2
  others : ∀ id w, (∀ e ∈ l, e.1 ≠ id) → id ∉ newIds → cur.find id = some w → base.find id = some w

namespace Restoring

variable {e : Σ _ : ObjectId, V}

omit [DecidableEq κ]

variable (h : Restoring schema base newIds (e :: l) cur)
include h

lemma ne_of_mem {e' : Σ _ : ObjectId, V} (he' : e' ∈ l) : e'.1 ≠ e.1 := by
  intro heq
  have hkeys := nodupKeys_cons.1 h.nodup
  exact hkeys.1 (heq ▸ mem_keys_of_mem he')

lemma keyTaken_iff : cur.KeyTaken schema e.1 e.2 ↔
      (∃ b ∈ newIds, HoldsKey schema cur e.1 e.2 b) ∨
        ∃ e' ∈ l, HoldsKey schema cur e.1 e.2 e'.1 := by
  rw [keyTaken_iff_holdsKey]
  constructor
  · rintro ⟨b, hb, hholds⟩
    by_cases hnew : b ∈ newIds
    · exact .inl ⟨b, hnew, hholds⟩
    · by_cases hl : ∃ e' ∈ l, e'.1 = b
      · obtain ⟨e', he', rfl⟩ := hl
        exact .inr ⟨e', he', hholds⟩
      · -- the object has its original value, and original values do not clash
        obtain ⟨hidx, w, hw, hc⟩ := hholds
        have hout : ∀ e' ∈ e :: l, e'.1 ≠ b := by
          intro e' he'
          rcases mem_cons.1 he' with rfl | he'
          · exact Ne.symm hb
          · exact fun heq => hl ⟨e', he', heq⟩
        have hbase := h.others b w hout hnew hw
        exact absurd ⟨hidx, w, hbase, hc⟩
          (not_holdsKey_of_unique h.unique (h.original e (mem_cons_self ..)) hb)
  · rintro (⟨b, hb, hholds⟩ | ⟨e', he', hholds⟩)
    · refine ⟨b, ?_, hholds⟩
      intro heq
      exact h.notNew e (mem_cons_self ..) (heq ▸ hb)
    · exact ⟨e'.1, h.ne_of_mem he', hholds⟩

lemma tail : Restoring schema base newIds l (cur.setObject e.1 (some e.2)) where
  unique := h.unique
  nodup := (nodupKeys_cons.1 h.nodup).2
  notNew := (forall_mem_cons.1 h.notNew).2
  present := by
    intro e' he'
    rw [find_setObject, if_neg (h.ne_of_mem he')]
    exact h.present e' (mem_cons_of_mem _ he')
  original := (forall_mem_cons.1 h.original).2
  others := by
    intro id w hout hnew hw
    rw [find_setObject] at hw
    split_ifs at hw with hid
    · rw [hid, ← hw]
      exact h.original e (mem_cons_self ..)
    · refine h.others id w ?_ hnew hw
      intro e' he'
      rcases mem_cons.1 he' with rfl | he'
      · exact Ne.symm hid
      · exact hout e' he'

end Restoring

lemma restoreOldValues_spec (l : List (Σ _ : ObjectId, V)) (db : ObjectDatabase schema)
    (hdis : db.undoDb.disabled = true) (h : Restoring schema base newIds l db.snapshot) :
    (KeyReused schema newIds db.snapshot l ∧ ∃ e db', restoreOldValues l db = .error e db') ∨
    (¬ KeyReused schema newIds db.snapshot l ∧ ∃ db', restoreOldValues l db = .ok () db' ∧
      db'.undoDb = db.undoDb ∧ db'.snapshot.nextId = db.snapshot.nextId ∧
      ∀ id, db'.snapshot.find id = (l.dlookup id).or (db.snapshot.find id)) := by
  induction l generalizing db with
  | nil => exact .inr ⟨by simp [KeyReused], db, rfl, rfl, rfl, fun _ => rfl⟩
  | cons e l ih =>
    rw [keyReused_cons, ← h.keyTaken_iff]
    rcases restoreOldValues_cons l (h.present e (mem_cons_self ..)) hdis with
      ⟨htaken, herr⟩ | ⟨hfree, db1, hundo, hs, heq⟩
    · exact .inl ⟨.inl htaken, herr⟩
    · have htail := hs ▸ h.tail
      have hreuse : KeyReused schema newIds db1.snapshot l ↔
          KeyReused schema newIds db.snapshot l := by
        rw [hs]
        refine keyReused_congr ?_ ?_
        · intro b hb
          rw [find_setObject, if_neg]
          intro hbe
          exact h.notNew e (mem_cons_self ..) (hbe ▸ hb)
        · intro e' he'
          rw [find_setObject, if_neg (h.ne_of_mem he')]
      rw [heq]
      rcases ih db1 (hundo ▸ hdis) htail with ⟨hr, herr⟩ | ⟨hr, db', hok, hu, hn, hfind⟩
      · exact .inl ⟨.inr (hreuse.1 hr), herr⟩
      · refine .inr ⟨?_, db', hok, hu.trans hundo, by rw [hn, hs]; rfl, ?_⟩
        · rintro (htaken | hr')
          · exact hfree htaken
          · exact hr (hreuse.2 hr')
        · intro id
          rw [hfind, hs, dlookup_cons_or (nodupKeys_cons.1 h.nodup).1 fun _ => find_setObject ..]

/-! ## The other loops -/

section

omit [DecidableEq κ]

lemma removeNewIds_spec {l : List ObjectId} (db : ObjectDatabase schema)
    (hdis : db.undoDb.disabled = true) (hnodup : l.Nodup)
    (hpre : ∀ id ∈ l, db.snapshot.find id ≠ none) :
    ∃ db', removeNewIds l db = .ok () db' ∧ db'.undoDb = db.undoDb ∧
      db'.snapshot.nextId = db.snapshot.nextId ∧
      ∀ id, db'.snapshot.find id = if id ∈ l then none else db.snapshot.find id := by
  induction l generalizing db with
  | nil => exact ⟨db, rfl, rfl, rfl, by simp⟩
  | cons a l ih =>
    obtain ⟨ha, hndp'⟩ := nodup_cons.1 hnodup
    rcases remove_cases a db with ⟨e, -, hnone⟩ | ⟨obj, db1, he, -, hundo, hs⟩
    · exact absurd hnone (hpre a (mem_cons_self ..))
    · have hundo' : db1.undoDb = db.undoDb :=
        hundo.trans (UndoDatabase.record_of_disabled hdis _)
      have hpre' : ∀ id ∈ l, db1.snapshot.find id ≠ none := by
        intro id hid
        rw [hs, find_setObject, if_neg]
        · exact hpre id (mem_cons_of_mem _ hid)
        · exact fun heq => ha (heq ▸ hid)
      obtain ⟨db', hok, hu, hn, hfind⟩ := ih db1 (hundo' ▸ hdis) hndp' hpre'
      refine ⟨db', ?_, hu.trans hundo', by rw [hn, hs]; rfl, ?_⟩
      · simp [removeNewIds, bind, EStateM.bind, he, hok]
      · intro id
        rw [hfind, hs, find_setObject]
        by_cases hid : id = a <;> simp [hid]

lemma restoreNextIds_spec {l : List (Σ _ : IndexId, Nat)} (db : ObjectDatabase schema)
    (hnodup : l.NodupKeys) (hreg : ∀ e ∈ l, db.snapshot.nextId e.1 ≠ none) :
    ∃ db', restoreNextIds l db = .ok () db' ∧ db'.undoDb = db.undoDb ∧
      db'.snapshot.find = db.snapshot.find ∧
      ∀ i, db'.snapshot.nextId i = (l.dlookup i).or (db.snapshot.nextId i) := by
  induction l generalizing db with
  | nil => exact ⟨db, rfl, rfl, rfl, fun _ => rfl⟩
  | cons a l ih =>
    obtain ⟨ha, hndp'⟩ := nodupKeys_cons.1 hnodup
    obtain ⟨db1, he, hundo, hs⟩ := setNextId_ok (n := a.2) (hreg a (mem_cons_self ..))
    have hreg' : ∀ e ∈ l, db1.snapshot.nextId e.1 ≠ none := by
      intro e hel
      rw [hs, nextId_setNextId]
      split_ifs
      · exact Option.some_ne_none _
      · exact hreg e (mem_cons_of_mem _ hel)
    obtain ⟨db', hok, hu, hf, hnext⟩ := ih db1 hndp' hreg'
    refine ⟨db', ?_, hu.trans hundo, by rw [hf, hs]; rfl, ?_⟩
    · simp [restoreNextIds, bind, EStateM.bind, he, hok]
    · intro i
      rw [hnext, hs, dlookup_cons_or ha fun _ => nextId_setNextId ..]

end

lemma insertRemoved_spec (hbase : base.UniqueKeys schema) (l : List (Σ _ : ObjectId, V))
    (db : ObjectDatabase schema) (hdis : db.undoDb.disabled = true) (hnodup : l.NodupKeys)
    (habs : ∀ e ∈ l, db.snapshot.find e.1 = none)
    (hreg : ∀ e ∈ l, db.snapshot.nextId e.1.index ≠ none) (hold : ∀ e ∈ l, base.find e.1 = some e.2)
    (hoth : ∀ id w, db.snapshot.find id = some w → base.find id = some w) :
    ∃ db', insertRemoved l db = .ok () db' ∧ db'.undoDb = db.undoDb ∧
      db'.snapshot.nextId = db.snapshot.nextId ∧
      ∀ id, db'.snapshot.find id = (l.dlookup id).or (db.snapshot.find id) := by
  induction l generalizing db with
  | nil => exact ⟨db, rfl, rfl, rfl, fun _ => rfl⟩
  | cons a l ih =>
    obtain ⟨ha, hndp'⟩ := nodupKeys_cons.1 hnodup
    have hne : ∀ e ∈ l, e.1 ≠ a.1 := fun e he heq => ha (heq ▸ mem_keys_of_mem he)
    have ha' := mem_cons_self (a := a) (l := l)
    -- whatever holds a key of the inserted value held it originally as well
    have hfree : ¬ db.snapshot.KeyTaken schema a.1 a.2 := by
      rw [keyTaken_iff_holdsKey]
      rintro ⟨b, hb, hidx, w, hw, hc⟩
      exact not_holdsKey_of_unique hbase (hold a ha') hb ⟨hidx, w, hoth b w hw, hc⟩
    obtain ⟨db1, he, hundo, hs⟩ := insert_ok (hreg a ha') (habs a ha') hfree
    have hundo' : db1.undoDb = db.undoDb := hundo.trans (UndoDatabase.record_of_disabled hdis _)
    have hfind : ∀ id, db1.snapshot.find id =
        if id = a.1 then some a.2 else db.snapshot.find id := by
      intro id
      rw [hs, find_setObject]
    have hstep := ih db1 (hundo' ▸ hdis) hndp'
      (fun e hel => by
        rw [hfind, if_neg (hne e hel)]
        exact habs e (mem_cons_of_mem _ hel))
      (fun e hel => by
        rw [hs]
        exact hreg e (mem_cons_of_mem _ hel))
      (forall_mem_cons.1 hold).2
      (fun id w hw => by
        rw [hfind] at hw
        split_ifs at hw with hid
        · rw [hid, ← hw]
          exact hold a ha'
        · exact hoth id w hw)
    obtain ⟨db', hok, hu, hn, hall⟩ := hstep
    refine ⟨db', ?_, hu.trans hundo', by rw [hn, hs]; rfl, ?_⟩
    · simp [insertRemoved, bind, EStateM.bind, he, hok]
    · exact fun id => (hall id).trans (dlookup_cons_or ha hfind id)

/-! ## All four loops -/

variable {u : UndoState V}

section

omit [DecidableEq κ]

lemma restoring_of_consistent (hbase : base.UniqueKeys schema)
    (hu : u.Consistent cur) (horig : u.original cur = base) (hl : l.Perm u.oldValues.entries) :
    Restoring schema base u.newIds l cur := by
  have hmem : ∀ e ∈ l, u.oldValues.lookup e.1 = some e.2 := by
    intro e he
    exact AList.mem_lookup_iff.2 (hl.mem_iff.1 he)
  have hfits : ∀ e ∈ l, cur.find e.1 ≠ none ∧ e.1 ∉ u.newIds := by
    intro e he
    have hfit := hu.fits e.1
    have hold : (u.trace e.1).old ≠ none := by simp [trace, hmem e he]
    refine ⟨(hfit.old hold).1, fun hnew => ?_⟩
    exact hold (hfit.new (by simpa [trace] using hnew)).2
  have hfind : ∀ id, base.find id = (u.trace id).original (cur.find id) := by
    intro id
    rw [← horig]
    rfl
  refine ⟨hbase, (perm_nodupKeys hl).2 u.oldValues.nodupKeys,
    fun e he => (hfits e he).2, fun e he => (hfits e he).1, ?_, ?_⟩
  · intro e he
    rw [hfind]
    simp [Trace.original, trace, (hfits e he).2, hmem e he]
  · intro id w hout hnew hw
    have hnot : u.oldValues.lookup id = none := by
      rw [Option.eq_none_iff_forall_not_mem]
      intro v hv
      exact hout ⟨id, v⟩ (hl.mem_iff.2 (AList.mem_lookup_iff.1 hv)) rfl
    have hnotr : u.removed.lookup id = none := by
      by_contra hrem
      have := (hu.fits id).removed hrem (by simpa [trace] using hnew)
      simp [hw] at this
    rw [hfind]
    simp [Trace.original, trace, hnew, hnot, hnotr, hw]

lemma registered_of_find (h : db.snapshot.find id = some v) :
    db.snapshot.nextId id.index ≠ none := by
  simp only [find_snapshot, findObject, Option.bind_eq_some_iff] at h
  obtain ⟨idx, hidx, -⟩ := h
  simp [getNextId, hidx]

end

variable {base : ObjectDatabase schema} (order : IterationOrder V)

lemma revert_tail_spec {db1 : ObjectDatabase schema}
    (hdis : db1.undoDb.disabled = true) (hu : u.Consistent db.snapshot)
    (horig : u.original db.snapshot = base.snapshot)
    (hnext1 : db1.snapshot.nextId = db.snapshot.nextId)
    (hfind1 : ∀ id, db1.snapshot.find id = (u.oldValues.lookup id).or (db.snapshot.find id)) :
    ∃ db', (do
        removeNewIds (order.newIds.order u.newIds)
        restoreNextIds (order.nextIds.order u.oldIndexNextIds.entries)
        insertRemoved (order.removed.order u.removed.entries) : DbM schema Unit) db1 = .ok () db' ∧
      db'.undoDb = db1.undoDb ∧ db'.snapshot = base.snapshot := by
  have hbase : ∀ id, base.snapshot.find id = (u.trace id).original (db.snapshot.find id) := by
    intro id
    rw [← horig]
    rfl
  -- second loop
  have hpre : ∀ id ∈ order.newIds.order u.newIds, db1.snapshot.find id ≠ none := by
    intro id hid
    have hnew := (hu.fits id).new (by simpa [trace] using hid)
    rw [hfind1, show u.oldValues.lookup id = none from hnew.2]
    exact hnew.1
  rcases removeNewIds_spec db1 hdis ((order.newIds.perm _).nodup_iff.2 u.newIds_nodup) hpre with
    ⟨db2, h2, hu2, hn2, hfind2⟩
  -- third loop
  have hreg : ∀ e ∈ order.nextIds.order u.oldIndexNextIds.entries,
      db2.snapshot.nextId e.1 ≠ none := by
    intro e he
    rw [hn2, hnext1]
    apply hu.registered
    have hlook : u.oldIndexNextIds.lookup e.1 = some e.2 :=
      AList.mem_lookup_iff.2 ((order.nextIds.mem_order _ _).1 he)
    simp [hlook]
  rcases restoreNextIds_spec db2
    ((perm_nodupKeys (order.nextIds.perm _)).2 u.oldIndexNextIds.nodupKeys) hreg with
    ⟨db3, h3, hu3, hf3, hnext3⟩
  have hfind3 : ∀ id, db3.snapshot.find id = (u.trace id).reverted (db.snapshot.find id) := by
    intro id
    rw [hf3, hfind2, hfind1]
    simp [Trace.reverted, trace]
  have hnext : db3.snapshot.nextId = base.snapshot.nextId := by
    funext i
    rw [hnext3, dlookup_order, hn2, hnext1, ← horig]
    rfl
  -- fourth loop
  have hrem : ∀ e ∈ order.removed.order u.removed.entries, u.removed.lookup e.1 = some e.2 :=
    fun e he => AList.mem_lookup_iff.2 ((order.removed.mem_order _ _).1 he)
  have habs : ∀ e ∈ order.removed.order u.removed.entries, db3.snapshot.find e.1 = none := by
    intro e he
    rw [hfind3]
    exact (hu.fits e.1).reverted_eq_none (by simp [trace, hrem e he])
  have hold : ∀ e ∈ order.removed.order u.removed.entries,
      base.snapshot.find e.1 = some e.2 := by
    intro e he
    rw [hbase, (hu.fits e.1).original_eq, show (u.trace e.1).removed = some e.2 from hrem e he]
    rfl
  have hreg3 : ∀ e ∈ order.removed.order u.removed.entries,
      db3.snapshot.nextId e.1.index ≠ none := by
    intro e he
    rw [hnext]
    exact registered_of_find (hold e he)
  have hoth : ∀ id w, db3.snapshot.find id = some w → base.snapshot.find id = some w := by
    intro id w hw
    rw [hfind3] at hw
    have hnone : (u.trace id).removed = none := by
      by_contra hne
      rw [(hu.fits id).reverted_eq_none hne] at hw
      cases hw
    rw [hbase, (hu.fits id).original_eq, hnone, hw]
    rfl
  have hdis3 : db3.undoDb.disabled = true := by
    rwa [hu3, hu2]
  rcases insertRemoved_spec base.snapshot_uniqueKeys _ db3 hdis3
    ((perm_nodupKeys (order.removed.perm _)).2 u.removed.nodupKeys) habs hreg3 hold
    hoth with ⟨db4, h4, hu4, hn4, hfind4⟩
  refine ⟨db4, ?_, by rw [hu4, hu3, hu2], ?_⟩
  · simp [bind, EStateM.bind, h2, h3, h4]
  · apply Snapshot.ext
    · funext id
      rw [hfind4, dlookup_order, hfind3, hbase, (hu.fits id).original_eq]
      rfl
    · rw [hn4, hnext]

lemma revert_spec (db : ObjectDatabase schema) (hdis : db.undoDb.disabled = true)
    (hu : u.Consistent db.snapshot) (horig : u.original db.snapshot = base.snapshot) :
    (KeyReused schema u.newIds db.snapshot (order.oldValues.order u.oldValues.entries) ∧
      ∃ e db', revert order u db = .error e db') ∨
    (¬ KeyReused schema u.newIds db.snapshot (order.oldValues.order u.oldValues.entries) ∧
      ∃ db', revert order u db = .ok () db' ∧ db'.undoDb = db.undoDb ∧
        db'.snapshot = base.snapshot) := by
  have hrest := restoring_of_consistent base.snapshot_uniqueKeys hu horig (order.oldValues.perm _)
  rcases restoreOldValues_spec _ db hdis hrest with
    ⟨hr, e, db', he⟩ | ⟨hr, db1, h1, hu1, hn1, hfind1⟩
  · exact .inl ⟨hr, e, db', by simp [revert, bind, EStateM.bind, he]⟩
  · simp only [dlookup_order] at hfind1
    obtain ⟨db', hok, hu', hs'⟩ := revert_tail_spec order (hu1 ▸ hdis) hu horig hn1 hfind1
    refine .inr ⟨hr, db', ?_, hu'.trans hu1, hs'⟩
    simpa [revert, bind, EStateM.bind, h1] using hok

end ObjectDatabase

end Graphene.Db
