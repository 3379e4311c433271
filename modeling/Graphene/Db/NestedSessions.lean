import Graphene.Db.UndoMerge

/-!
# Sessions inside sessions

`push_proposal` and `try_push_virtual_operation` start an undo session inside the sessions that are
already active, also when undo is disabled.  `Tracked` says what holds while calls are made inside such
a session; it can always be closed.

The unique keys of the chain are never modified, so the calls considered here keep the unique keys of
the objects they modify (`Call.KeepsKeys`).
-/

namespace Graphene.Db

open Lib Option Snapshot UndoState UndoDatabase

def SameKeys {κ V : Type} (keys : List (V → κ)) (v w : V) : Prop :=
  ∀ k ∈ keys, k v = k w

namespace SameKeys

variable {κ V : Type} {keys : List (V → κ)} {v w x : V}

lemma refl (v : V) : SameKeys keys v v := fun _ _ => rfl

lemma trans (h : SameKeys keys v w) (h' : SameKeys keys w x) : SameKeys keys v x :=
  fun k hk => (h k hk).trans (h' k hk)

lemma clash (h : SameKeys keys v w) (hc : Clash keys v x) : Clash keys w x := by
  obtain ⟨k, hk, heq⟩ := hc
  exact ⟨k, hk, (h k hk).symm.trans heq⟩

end SameKeys

/-- What calls that keep unique keys can make of `s`: next ids only grow, objects that were not there
have ids that were not given out before, and the others have the same unique keys. -/
structure Snapshot.Evolves {κ V : Type} (schema : Schema κ V) (s t : Snapshot V) : Prop where
  grown : ∀ i n, s.nextId i = some n → ∃ m, t.nextId i = some m ∧ n ≤ m
  new : ∀ id n, s.find id = none → t.find id ≠ none → s.nextId id.index = some n → n ≤ id.inst
  keys : ∀ id v w, s.find id = some v → t.find id = some w → SameKeys (schema id.index) v w

namespace Snapshot.Evolves

variable {κ V : Type} {schema : Schema κ V} {t u : Snapshot V}

lemma refl (s : Snapshot V) : s.Evolves schema s where
  grown := fun i n hn => ⟨n, hn, le_rfl⟩
  new := fun id n hnone hsome => absurd hnone hsome
  keys := by
    intro id v w hv hw
    rw [hv, some_inj] at hw
    exact hw ▸ SameKeys.refl v

lemma trans {base : ObjectDatabase schema} (hbel : base.snapshot.IdsBelowNext)
    (h : base.snapshot.Evolves schema t) (h' : t.Evolves schema u) :
    base.snapshot.Evolves schema u where
  grown := by
    intro i n hn
    obtain ⟨m, hm, hle⟩ := h.grown i n hn
    obtain ⟨k, hk, hle'⟩ := h'.grown i m hm
    exact ⟨k, hk, Nat.le_trans hle hle'⟩
  new := by
    intro id n hnone hsome hn
    by_cases hmid : t.find id = none
    · obtain ⟨m, hm, hle⟩ := h.grown id.index n hn
      exact Nat.le_trans hle (h'.new id m hmid hsome hm)
    · exact h.new id n hnone hmid hn
  keys := by
    intro id v w hv hw
    cases hmid : t.find id with
    | some x => exact (h.keys id v x hv hmid).trans (h'.keys id x w hmid hw)
    | none =>
      have hbase : base.snapshot.find id ≠ none := by
        rw [hv]
        exact some_ne_none v
      obtain ⟨n, hn⟩ := ne_none_iff_exists'.1 (ObjectDatabase.registered_of_find hv)
      obtain ⟨m, hm, hle⟩ := h.grown id.index n hn
      have hlt : id.inst < n := hbel id n hbase hn
      have hge : m ≤ id.inst := h'.new id m hmid (by rw [hw]; exact some_ne_none w) hm
      omega

end Snapshot.Evolves

lemma Trace.isNew_merge {V : Type} {a b : Trace V} (h : (a.merge b).isNew = true) :
    a.isNew = true ∨ b.isNew = true := by
  obtain ⟨isNew, old, removed⟩ := a
  obtain ⟨isNew', old', removed'⟩ := b
  cases isNew with
  | true => exact Or.inl rfl
  | false =>
    cases isNew' with
    | true => exact Or.inr rfl
    | false => cases old' <;> cases removed' <;> simp [merge, onModify, mergeRemoved] at h

lemma UndoState.mem_newIds_merge {V : Type} {a b : UndoState V} {id : ObjectId}
    (h : id ∈ (a.merge b).newIds) : id ∈ a.newIds ∨ id ∈ b.newIds := by
  have htrace : ((a.trace id).merge (b.trace id)).isNew = true := by
    rw [← trace_merge]
    exact decide_eq_true h
  rcases Trace.isNew_merge htrace with ha | hb
  · exact Or.inl (of_decide_eq_true ha)
  · exact Or.inr (of_decide_eq_true hb)

namespace ObjectDatabase

variable {κ V : Type} {schema : Schema κ V}

namespace Call

def KeepsKeys (schema : Schema κ V) : Call V → Prop
  | modify id m => ∀ v, SameKeys (schema id.index) v (m v).value
  | _ => True

lemma not_collides_of_keepsKeys {c : Call V} (hc : c.KeepsKeys schema) (db : ObjectDatabase schema) :
    ¬ c.Collides db := by
  cases c with
  | create i constructor | remove id => exact fun h => h
  | modify id m =>
    rintro ⟨obj, hobj, n, w, hn, hw, hclash⟩
    have hsame : SameKeys (schema id.index) (m obj).value obj := fun k hk => (hc obj k hk).symm
    exact db.snapshot_uniqueKeys id obj hobj ⟨n, w, hn, hw, hsame.clash hclash⟩

variable [DecidableEq κ]

lemma exec_evolves {c : Call V} (hc : c.KeepsKeys schema) (db : ObjectDatabase schema) :
    db.snapshot.Evolves schema (final (c.exec db)).snapshot := by
  -- a change of one object that is there keeps the next ids and adds no object
  have hset : ∀ (id : ObjectId) (obj : V) (new : Option V), db.snapshot.find id = some obj →
      (∀ w, new = some w → SameKeys (schema id.index) obj w) →
      db.snapshot.Evolves schema (db.snapshot.setObject id new) := by
    intro id obj new hobj hkeys
    refine ⟨fun i n hn => ⟨n, hn, Nat.le_refl n⟩, ?_, ?_⟩
    · intro id' n hnone hsome
      rw [find_setObject] at hsome
      split_ifs at hsome with hid
      · rw [hid, hobj] at hnone
        cases hnone
      · exact absurd hnone hsome
    · intro id' v w hv hw
      rw [find_setObject] at hw
      split_ifs at hw with hid
      · subst hid
        rw [hobj, some_inj] at hv
        exact hv ▸ hkeys w hw
      · rw [hv, some_inj] at hw
        exact hw ▸ SameKeys.refl v
  rcases exec_inv c db with heq | ⟨i, n, item, hnext, hfree, -, hs⟩ |
    ⟨id, obj, new, hobj, -, hs, -, hnew⟩ | ⟨id, obj, hobj, -, hs⟩
  · rw [heq]
    exact Snapshot.Evolves.refl _
  · rw [hs]
    refine ⟨?_, ?_, ?_⟩
    · intro j k hk
      rw [nextId_setNextId, nextId_setObject]
      split_ifs with hj
      · subst hj
        rw [hnext, some_inj] at hk
        exact ⟨n + 1, rfl, by omega⟩
      · exact ⟨k, hk, le_rfl⟩
    · intro id k hnone hsome hk
      rw [find_setNextId, find_setObject] at hsome
      split_ifs at hsome with hid
      · subst hid
        rw [hnext, some_inj] at hk
        exact Nat.le_of_eq hk.symm
      · exact absurd hnone hsome
    · intro id v w hv hw
      rw [find_setNextId, find_setObject] at hw
      split_ifs at hw with hid
      · subst hid
        rw [hfree] at hv
        cases hv
      · rw [hv, some_inj] at hw
        exact hw ▸ SameKeys.refl v
  · rw [hs]
    refine hset id obj new hobj fun w hw => ?_
    obtain ⟨m, rfl, rfl⟩ := hnew w hw
    exact hc obj
  · rw [hs]
    exact hset id obj none hobj (fun w hw => by cases hw)

end Call

/-! ## What holds inside a session -/

/-- The newest session began in `base`, with the states `rest` below it, and only calls that keep
unique keys were made since. -/
structure Tracked (base : ObjectDatabase schema) (rest : List (UndoState V))
    (db : ObjectDatabase schema) : Prop where
  below : base.snapshot.IdsBelowNext
  inSession : db.InSession base.snapshot rest
  fresh : FreshSince base.snapshot db
  evolves : base.snapshot.Evolves schema db.snapshot

section

variable (db : ObjectDatabase schema)

/-- `set_max_size` before a session that may not drop a state. -/
def makeRoom : ObjectDatabase schema :=
  db.mapUndo fun u => if u.maxSize ≤ u.size then u.setMaxSize (u.size + 1) else u

def startForcedSession : ObjectDatabase schema :=
  (db.mapUndo enable).startUndoSession

lemma makeRoom_undoDb : ∃ n, db.undoDb.size < n ∧ db.makeRoom.undoDb = db.undoDb.setMaxSize n := by
  unfold makeRoom
  by_cases hfull : db.undoDb.maxSize ≤ db.undoDb.size
  · exact ⟨db.undoDb.size + 1, Nat.lt_succ_self _, by simp [hfull]⟩
  · exact ⟨db.undoDb.maxSize, Nat.lt_of_not_le hfull, by simp [hfull, setMaxSize]⟩

lemma startForcedSession_undoDb : ∃ n, db.makeRoom.startForcedSession.undoDb =
      ⟨.empty :: db.undoDb.stack, false, db.undoDb.activeSessions + 1, n⟩ := by
  obtain ⟨n, hn, hundo⟩ := db.makeRoom_undoDb
  refine ⟨n, ?_⟩
  have htake : db.undoDb.stack.take n = db.undoDb.stack := List.take_of_length_le (Nat.le_of_lt hn)
  simp [startForcedSession, startUndoSession, hundo, UndoDatabase.enable, UndoDatabase.setMaxSize,
    UndoDatabase.startUndoSession, htake]

end

lemma tracked_startForcedSession {db : ObjectDatabase schema} (hbel : db.snapshot.IdsBelowNext) :
    Tracked db db.undoDb.stack db.makeRoom.startForcedSession := by
  obtain ⟨n, hundo⟩ := db.startForcedSession_undoDb
  refine ⟨hbel, ⟨by rw [hundo], .empty, by rw [hundo], ?_, ?_⟩, ⟨hbel, ?_, ?_⟩, ?_⟩
  · exact empty_consistent _
  · exact original_empty _
  · exact fun i n hn => ⟨n, hn, le_rfl⟩
  · intro u rest hst id hid
    cases hst
    simp [empty] at hid
  · exact Snapshot.Evolves.refl _

namespace Tracked

variable {base db db' : ObjectDatabase schema} {rest : List (UndoState V)}

lemma congr (h : Tracked base rest db) (hsnap : db'.snapshot = db.snapshot)
    (hstack : db'.undoDb.stack = db.undoDb.stack)
    (hdis : db'.undoDb.disabled = db.undoDb.disabled) : Tracked base rest db' := by
  refine ⟨h.below, ⟨hdis.trans h.inSession.enabled, ?_⟩, ⟨?_, ?_, ?_⟩, hsnap ▸ h.evolves⟩
  · rw [hstack, hsnap]
    exact h.inSession.top
  · exact hsnap ▸ h.fresh.below
  · exact hsnap ▸ h.fresh.grown
  · rw [hstack]
    exact h.fresh.new

/-- The old value of a modified object has the unique keys of the present one, so no other object
holds them. -/
lemma not_keyReused (h : Tracked base rest db) {u : UndoState V} (hcons : u.Consistent db.snapshot)
    (horig : u.original db.snapshot = base.snapshot) {l : List (Σ _ : ObjectId, V)}
    (hl : l.Perm u.oldValues.entries) : ¬ KeyReused schema u.newIds db.snapshot l := by
  have hres := restoring_of_consistent base.snapshot_uniqueKeys hcons horig hl
  have hfree : ∀ e ∈ l, ∀ b, b ≠ e.1 → ¬ HoldsKey schema db.snapshot e.1 e.2 b := by
    rintro ⟨id, v⟩ he b hb ⟨hidx, x, hx, hclash⟩
    obtain ⟨w, hw⟩ := ne_none_iff_exists'.1 (hres.present _ he)
    have hsame := h.evolves.keys id v w (hres.original _ he) hw
    exact not_holdsKey_of_unique db.snapshot_uniqueKeys hw hb ⟨hidx, x, hx, hsame.clash hclash⟩
  rintro (⟨e, he, b, hb, hholds⟩ | hpair)
  · exact hfree e he b (fun hbe => hres.notNew e he (hbe ▸ hb)) hholds
  · refine hpair ?_
    have hne : l.Pairwise fun e e' => e.1 ≠ e'.1 := List.nodupKeys_iff_pairwise.1 hres.nodup
    refine List.Pairwise.imp_of_mem ?_ hne
    intro e e' he _ hee
    exact hfree e he e'.1 (Ne.symm hee)

variable [DecidableEq κ]

lemma exec (h : Tracked base rest db) {c : Call V} (hc : c.KeepsKeys schema) :
    Tracked base rest (final (c.exec db)) where
  below := h.below
  inSession := Call.exec_inSession h.inSession (Call.not_collides_of_keepsKeys hc db)
  fresh := h.fresh.exec h.inSession c
  evolves := h.evolves.trans h.below (Call.exec_evolves hc db)

lemma undo_ok (h : Tracked base rest db) (hact : db.undoDb.activeSessions ≠ 0)
    (order : IterationOrder V) : ∃ db', undo order db = .ok () db' ∧ db'.snapshot = base.snapshot ∧
      db'.undoDb = ⟨rest, false, db.undoDb.activeSessions - 1, db.undoDb.maxSize⟩ := by
  obtain ⟨u, hst, hcons, horig⟩ := h.inSession.top
  have hrev := revert_spec order (db.mapUndo disable) rfl hcons horig
  rcases hrev with ⟨hreu, -⟩ | ⟨-, db1, hok, hundo, hsnap⟩
  · exact absurd hreu (h.not_keyReused hcons horig (order.oldValues.perm _))
  · refine ⟨db1.mapUndo fun u =>
      { u with stack := rest, disabled := false, activeSessions := u.activeSessions - 1 }, ?_, hsnap, ?_⟩
    · simp [undo, h.inSession.enabled, hact, hst, hok]
    · simp [hundo, disable]

omit [DecidableEq κ] in
lemma merge_ok {inner : ObjectDatabase schema} (h : Tracked base rest db)
    (hinn : Tracked db db.undoDb.stack inner) (hact : inner.undoDb.activeSessions ≠ 0) :
    ∃ db', merge inner = .ok () db' ∧ db'.snapshot = inner.snapshot ∧ Tracked base rest db' ∧
      db'.undoDb.activeSessions = inner.undoDb.activeSessions - 1 := by
  obtain ⟨a, ha, hconsa, hoa⟩ := h.inSession.top
  obtain ⟨b, hb, hconsb, hob⟩ := hinn.inSession.top
  rw [ha] at hb
  have hfre := hinn.fresh.new_not_removed hinn.below hb hob
  have hspec := merge_spec (a := a) (hob ▸ hconsa) hconsb hfre
  refine ⟨inner.mergeTop (a.merge b) rest, merge_eq hb hact, rfl, ?_, rfl⟩
  have hevo := h.evolves.trans h.below hinn.evolves
  refine ⟨h.below, ⟨hinn.inSession.enabled, a.merge b, rfl, hspec.1, ?_⟩,
    ⟨hinn.fresh.below, hevo.grown, ?_⟩, hevo⟩
  · exact hspec.2.trans (hob ▸ hoa)
  · rintro u rest' hst id hid n hn
    cases hst
    rcases mem_newIds_merge hid with hida | hidb
    · exact h.fresh.new a rest ha id hida n hn
    · obtain ⟨m, hm, hle⟩ := h.fresh.grown id.index n hn
      exact Nat.le_trans hle (hinn.fresh.new b _ hb id hidb m hm)

end Tracked
end ObjectDatabase
end Graphene.Db
