import Graphene.Chain.ApplyBlock

/-!
# The block database

`block_database` keeps the blocks in a file to which it only appends, and an index file with one entry
for each block number: the place of the block, its size, and its id.  Removing a block sets the size to
zero and leaves the id.  Writing beyond the end of the index file fills the gap with zeros.
`last_index_entry` cuts the entries without a block off the end of the file.

The format of packed blocks is a parameter.  `placed` is the invariant over the two files: an entry with
a size other than zero points at the bytes of a block with its id and its number.  Files that were
damaged on disk are not modelled, nor a block of 2^32 bytes, whose size would not fit the entry.
-/

namespace Graphene.Chain

open Lib List Option

/-- `fc::raw::pack` and `fc::raw::unpack` of a block; `unpack` throws on no data. -/
class BlockFormat (H Tx : Type) where
  Byte : Type
  pack : SignedBlock H Tx → List Byte
  unpack : List Byte → Option (SignedBlock H Tx)
  unpack_pack : ∀ b, unpack (pack b) = some b
  unpack_nil : unpack [] = none

/-- The format whose bytes are the headers and the transactions themselves. -/
@[reducible]
def BlockFormat.symbols (H Tx : Type) : BlockFormat H Tx where
  Byte := H ⊕ Tx
  pack b := b.id.map .inl ++ b.transactions.map .inr
  unpack data :=
    match data.filterMap Sum.getLeft? with
    | [] => none
    | header :: previous => some ⟨header, previous, data.filterMap Sum.getRight?⟩
  unpack_pack b := by simp [SignedBlock.id, filterMap_cons, filterMap_map, Function.comp_def]
  unpack_nil := rfl

/-- `index_entry`; there is no block when `block_size` is zero. -/
structure IndexEntry (H : Type) where
  blockPos : Nat
  blockSize : Nat
  blockId : BlockId H

def IndexEntry.zero {H : Type} : IndexEntry H :=
  ⟨0, 0, []⟩

variable {H Tx : Type} [BlockFormat H Tx]

/-- Seek and read; reading beyond the end of the file throws. -/
def IndexEntry.read (e : IndexEntry H) (blocks : List (BlockFormat.Byte H Tx)) :
    Option (List (BlockFormat.Byte H Tx)) :=
  if e.blockPos + e.blockSize ≤ blocks.length then some ((blocks.drop e.blockPos).take e.blockSize)
  else none

/-- The files `blocks` and `index`. -/
structure BlockDatabase (H Tx : Type) [BlockFormat H Tx] where
  blocks : List (BlockFormat.Byte H Tx)
  index : List (IndexEntry H)
  placed : ∀ {k : Nat} {e : IndexEntry H}, index[k]? = some e → e.blockSize ≠ 0 →
    ∃ b, e.read blocks = some (BlockFormat.pack b) ∧ e.blockId = b.id ∧ k = b.blockNum

lemma BlockFormat.pack_ne_nil (b : SignedBlock H Tx) : pack b ≠ [] := by
  intro hnil
  have hsome := unpack_pack b
  rw [hnil, unpack_nil] at hsome
  cases hsome

namespace BlockDatabase

def empty : BlockDatabase H Tx where
  blocks := []
  index := []
  placed := fun h => by cases h

/-- The index file with an entry written at a position, which may lie beyond its end. -/
def writeEntry (index : List (IndexEntry H)) (k : Nat) (e : IndexEntry H) : List (IndexEntry H) :=
  (index ++ List.replicate (k + 1 - index.length) IndexEntry.zero).set k e

section

variable (index : List (IndexEntry H))

lemma getElem?_writeEntry_self (k : Nat) (e : IndexEntry H) :
    (writeEntry index k e)[k]? = some e := by
  rw [writeEntry, getElem?_set_self]
  simp only [length_append, length_replicate]
  omega

lemma getElem?_writeEntry_ne {j k : Nat} (e : IndexEntry H) (hj : j ≠ k) :
    (writeEntry index k e)[j]? = index[j]? ∨
      index[j]? = none ∧ (writeEntry index k e)[j]? = some .zero := by
  rw [writeEntry, getElem?_set_ne hj.symm]
  by_cases hlt : j < index.length
  · exact Or.inl (getElem?_append_left hlt)
  · have hnone : index[j]? = none := getElem?_eq_none (Nat.le_of_not_lt hlt)
    rw [getElem?_append_right (Nat.le_of_not_lt hlt), getElem?_replicate]
    split_ifs
    · exact Or.inr ⟨hnone, rfl⟩
    · exact Or.inl hnone.symm

end

variable {k : Nat} {e : IndexEntry H}

lemma getElem?_of_initial {index index' : List (IndexEntry H)} (h : index' <+: index)
    (hk : index'[k]? = some e) : index[k]? = some e := by
  obtain ⟨rest, rfl⟩ := h
  rw [List.getElem?_append_left (List.getElem?_eq_some_iff.1 hk).1, hk]

/-! ## Reading and writing -/

/-- What is written behind the end changes nothing for the entries there are. -/
lemma read_append {blocks data more : List (BlockFormat.Byte H Tx)} (h : e.read blocks = some data) :
    e.read (blocks ++ more) = some data := by
  unfold IndexEntry.read at h ⊢
  split_ifs at h with hle
  have hle' : e.blockPos + e.blockSize ≤ (blocks ++ more).length := by
    rw [length_append]
    omega
  rw [if_pos hle', ← h, drop_append_of_le_length (by omega), take_append_of_le_length]
  rw [length_drop]
  omega

lemma read_written (blocks data : List (BlockFormat.Byte H Tx)) (id : BlockId H) :
    IndexEntry.read ⟨blocks.length, data.length, id⟩ (blocks ++ data) = some data := by
  simp [IndexEntry.read]

variable [DecidableEq H]

/-- The bytes an entry points at, unpacked, with the check of the id. -/
def blockAt (blocks : List (BlockFormat.Byte H Tx)) (e : IndexEntry H) :
    Option (SignedBlock H Tx) :=
  (e.read blocks).bind fun data =>
    (BlockFormat.unpack data).filter fun b => decide (b.id = e.blockId)

lemma blockAt_eq {blocks : List (BlockFormat.Byte H Tx)} {b : SignedBlock H Tx}
    (hread : e.read blocks = some (BlockFormat.pack b)) (hid : e.blockId = b.id) :
    blockAt blocks e = some b := by
  simp [blockAt, hread, BlockFormat.unpack_pack, hid]

lemma blockAt_zero (blocks : List (BlockFormat.Byte H Tx)) (hsize : e.blockSize = 0) :
    blockAt blocks e = none := by
  unfold blockAt IndexEntry.read
  rw [hsize, take_zero]
  split_ifs
  · rw [bind_some, BlockFormat.unpack_nil]
    rfl
  · rfl

section

variable (db : BlockDatabase H Tx)

/-- The entry `store` writes: the block is appended to the blocks. -/
def newEntry (b : SignedBlock H Tx) : IndexEntry H :=
  ⟨db.blocks.length, (BlockFormat.pack b).length, b.id⟩

/-- `store`, called with the id of the block. -/
def store (b : SignedBlock H Tx) : BlockDatabase H Tx where
  blocks := db.blocks ++ BlockFormat.pack b
  index := writeEntry db.index b.blockNum (db.newEntry b)
  placed := by
    intro k e hk hsize
    by_cases hself : k = b.blockNum
    · subst hself
      rw [getElem?_writeEntry_self] at hk
      cases hk
      exact ⟨b, read_written _ _ _, rfl, rfl⟩
    · rcases getElem?_writeEntry_ne db.index (db.newEntry b) hself with hold | ⟨-, hgap⟩
      · obtain ⟨c, hread, hc⟩ := db.placed (hold.symm.trans hk) hsize
        exact ⟨c, read_append hread, hc⟩
      · rw [hgap] at hk
        cases hk
        exact absurd rfl hsize

/-- `remove`: the size is set to zero when the entry has this id. -/
def remove (id : BlockId H) : Except ChainError (BlockDatabase H Tx) :=
  match db.index[numFromId id]? with
  | none => .error .notInBlockDatabase
  | some e =>
    if e.blockId = id then
      .ok {
        db with
        index := db.index.set (numFromId id) { e with blockSize := 0 }
        placed := by
          intro k e' hk hsize
          rw [List.getElem?_set] at hk
          split_ifs at hk
          · cases hk
            exact absurd rfl hsize
          · exact db.placed hk hsize }
    else .ok db

def fetchByNumber (num : Nat) : Option (SignedBlock H Tx) :=
  db.index[num]?.bind (blockAt db.blocks)

/-- The loop of `last_index_entry` cuts the entry off the end of the index. -/
def isCut (blocks : List (BlockFormat.Byte H Tx)) (e : IndexEntry H) : Bool :=
  decide (e.blockSize = 0) || (blockAt blocks e).isNone

/-- `last_index_entry` leaves the file without the entries that have no block at its end. -/
def trimmed : BlockDatabase H Tx where
  blocks := db.blocks
  index := db.index.rdropWhile (isCut db.blocks)
  placed := fun hk => db.placed (getElem?_of_initial ( rdropWhile_prefix _ _) hk)

def lastIndexEntry : Option (IndexEntry H) :=
  db.trimmed.index.getLast?

def lastId : Option (BlockId H) :=
  db.lastIndexEntry.map IndexEntry.blockId

def last : Option (SignedBlock H Tx) :=
  db.lastIndexEntry.bind fun e => db.trimmed.fetchByNumber (numFromId e.blockId)

end

variable {db : BlockDatabase H Tx} {b : SignedBlock H Tx}

/-- What an entry of the index gives: nothing, or a block with its id and its number. -/
lemma blockAt_cases (hk : db.index[k]? = some e) :
    (e.blockSize = 0 ∧ blockAt db.blocks e = none) ∨
      e.blockSize ≠ 0 ∧ ∃ b, blockAt db.blocks e = some b ∧ e.blockId = b.id ∧ k = b.blockNum := by
  by_cases hsize : e.blockSize = 0
  · exact .inl ⟨hsize, blockAt_zero _ hsize⟩
  · obtain ⟨b, hread, hid, hnum⟩ := db.placed hk hsize
    exact .inr ⟨hsize, b, blockAt_eq hread hid, hid, hnum⟩

lemma blockAt_some (hk : db.index[k]? = some e) (hb : blockAt db.blocks e = some b) :
    e.blockSize ≠ 0 ∧ e.blockId = b.id ∧ k = b.blockNum := by
  rcases blockAt_cases hk with ⟨-, hnone⟩ | ⟨hsize, c, hc, hid, hnum⟩
  · rw [hnone] at hb
    cases hb
  · rw [hc] at hb
    cases hb
    exact ⟨hsize, hid, hnum⟩

lemma blockAt_store (hk : db.index[k]? = some e) (b : SignedBlock H Tx) :
    blockAt (db.store b).blocks e = blockAt db.blocks e := by
  by_cases hsize : e.blockSize = 0
  · rw [blockAt_zero _ hsize, blockAt_zero _ hsize]
  · obtain ⟨c, hread, hid, -⟩ := db.placed hk hsize
    rw [blockAt_eq hread hid]
    exact blockAt_eq (read_append hread) hid

lemma isCut_eq (hk : db.index[k]? = some e) : isCut db.blocks e = (blockAt db.blocks e).isNone := by
  rcases blockAt_cases hk with ⟨hsize, hnone⟩ | ⟨hsize, -⟩
  · simp [isCut, hsize, hnone]
  · simp [isCut, hsize]

lemma fetchByNumber_eq_some :
    db.fetchByNumber k = some b ↔ ∃ e, db.index[k]? = some e ∧ blockAt db.blocks e = some b := by
  simp [fetchByNumber, bind_eq_some_iff]

lemma blockNum_of_fetchByNumber (h : db.fetchByNumber k = some b) : b.blockNum = k := by
  obtain ⟨e, he, hb⟩ := fetchByNumber_eq_some.1 h
  exact (blockAt_some he hb).2.2.symm

lemma fetchByNumber_store (k : Nat) :
    (db.store b).fetchByNumber k = if k = b.blockNum then some b else db.fetchByNumber k := by
  split_ifs with hself
  · subst hself
    exact fetchByNumber_eq_some.2 ⟨db.newEntry b, getElem?_writeEntry_self _ _ _,
      blockAt_eq (read_written _ _ _) rfl⟩
  · have hat : (db.store b).fetchByNumber k =
        (writeEntry db.index b.blockNum (db.newEntry b))[k]?.bind (blockAt (db.store b).blocks) := rfl
    rw [hat]
    rcases getElem?_writeEntry_ne db.index (db.newEntry b) hself with hold | ⟨hnone, hgap⟩
    · rw [hold, fetchByNumber]
      cases hk : db.index[k]? with
      | none => rfl
      | some e => exact blockAt_store hk b
    · rw [hgap, fetchByNumber, hnone]
      exact blockAt_zero (e := .zero) _ rfl

@[simp] lemma fetchByNumber_trimmed (db : BlockDatabase H Tx) (k : Nat) :
    db.trimmed.fetchByNumber k = db.fetchByNumber k := by
  have hsplit : db.trimmed.index ++ db.index.rtakeWhile (isCut db.blocks) = db.index :=
    rdropWhile_append_rtakeWhile
  by_cases hk : k < db.trimmed.index.length
  · unfold fetchByNumber
    conv_rhs => rw [← hsplit]
    rw [getElem?_append_left hk]
    rfl
  · have hnone : db.trimmed.fetchByNumber k = none := by
      rw [fetchByNumber, getElem?_eq_none (Nat.le_of_not_lt hk)]
      rfl
    rw [hnone]
    symm
    cases he : db.index[k]? with
    | none => simp [fetchByNumber, he]
    | some e =>
      have hcut : (db.index.rtakeWhile (isCut db.blocks))[k - db.trimmed.index.length]? = some e := by
        rw [← he, ← getElem?_append_right (Nat.le_of_not_lt hk), hsplit]
      have hnone := mem_rtakeWhile_imp (mem_of_getElem? hcut)
      rw [isCut_eq he, isNone_iff_eq_none] at hnone
      simp [fetchByNumber, he, hnone]

structure IsLast (db : BlockDatabase H Tx) (b : SignedBlock H Tx) : Prop where
  fetched : db.fetchByNumber b.blockNum = some b
  above : ∀ k, b.blockNum < k → db.fetchByNumber k = none

lemma IsLast.unique {c : SignedBlock H Tx} (hb : db.IsLast b) (hc : db.IsLast c) : b = c := by
  rcases Nat.lt_trichotomy b.blockNum c.blockNum with hlt | heq | hlt
  · have hbad := hb.above _ hlt
    rw [hc.fetched] at hbad
    cases hbad
  · have hfet := hb.fetched
    rw [heq, hc.fetched] at hfet
    exact (some.inj hfet).symm
  · have hbad := hc.above _ hlt
    rw [hb.fetched] at hbad
    cases hbad

lemma fetchByNumber_of_lastIndexEntry_none (h : db.lastIndexEntry = none) (k : Nat) :
    db.fetchByNumber k = none := by
  have hnil : db.trimmed.index = [] := getLast?_eq_none_iff.1 h
  rw [← fetchByNumber_trimmed, fetchByNumber, hnil]
  rfl

lemma isLast_of_lastIndexEntry (h : db.lastIndexEntry = some e) :
    ∃ b, e.blockId = b.id ∧ db.IsLast b := by
  obtain ⟨front, hfrt⟩ := getLast?_eq_some_iff.1 h
  have hne : db.trimmed.index ≠ [] := by
    rw [hfrt]
    exact append_ne_nil_of_right_ne_nil _ (cons_ne_nil _ _)
  -- the loop stops at an entry with a block
  have hlast : ¬ isCut db.blocks (db.trimmed.index.getLast hne) = true := rdropWhile_last_not _ _ hne
  have hgel : db.trimmed.index.getLast hne = e := by
    simp only [hfrt, getLast_append_singleton]
  rw [hgel] at hlast
  obtain ⟨b, hb⟩ : ∃ b, blockAt db.blocks e = some b := by
    cases he : blockAt db.blocks e with
    | none => simp [isCut, he] at hlast
    | some b => exact ⟨b, rfl⟩
  have hat : db.trimmed.index[front.length]? = some e := by
    rw [hfrt, getElem?_concat_length]
  obtain ⟨-, hid, hnum⟩ := blockAt_some hat hb
  refine ⟨b, hid, ?_, ?_⟩
  · rw [← fetchByNumber_trimmed, ← hnum]
    exact fetchByNumber_eq_some.2 ⟨e, hat, hb⟩
  · intro k hk
    have hlen : db.trimmed.index.length ≤ k := by
      rwa [hfrt, length_append, length_singleton, hnum]
    rw [← fetchByNumber_trimmed, fetchByNumber, getElem?_eq_none hlen]
    rfl

lemma lastId_cases (db : BlockDatabase H Tx) : (db.lastId = none ∧ ∀ k, db.fetchByNumber k = none) ∨
      ∃ b, db.lastId = some b.id ∧ db.IsLast b := by
  unfold lastId
  cases he : db.lastIndexEntry with
  | none => exact Or.inl ⟨rfl, fetchByNumber_of_lastIndexEntry_none he⟩
  | some =>
    obtain ⟨b, hid, hb⟩ := isLast_of_lastIndexEntry he
    exact Or.inr ⟨b, by rw [map_some, hid], hb⟩

lemma last_eq_some : db.last = some b ↔ db.IsLast b := by
  unfold last
  cases he : db.lastIndexEntry with
  | none =>
    constructor
    · intro h
      cases h
    · intro h
      have hbad := h.fetched
      rw [fetchByNumber_of_lastIndexEntry_none he] at hbad
      cases hbad
  | some e =>
    obtain ⟨c, hid, hc⟩ := isLast_of_lastIndexEntry he
    have hfetch : (some e).bind (fun e => db.trimmed.fetchByNumber (numFromId e.blockId)) =
        some c := by
      rw [bind_some, hid, fetchByNumber_trimmed, SignedBlock.numFromId_id, hc.fetched]
    rw [hfetch]
    constructor
    · intro h
      cases h
      exact hc
    · intro h
      rw [hc.unique h]

omit [DecidableEq H] in
lemma entry_store (hk : (db.store b).index[k]? = some e) (hzero : e.blockSize = 0) :
    k ≠ b.blockNum ∧ (db.index[k]? = some e ∨ e = .zero) := by
  by_cases hself : k = b.blockNum
  · subst hself
    obtain rfl := mem_unique (getElem?_writeEntry_self db.index _ _) hk
    exact absurd (length_eq_zero_iff.1 hzero) (BlockFormat.pack_ne_nil b)
  · refine ⟨hself, ?_⟩
    rcases getElem?_writeEntry_ne db.index (db.newEntry b) hself with hold | ⟨-, hgap⟩
    · exact .inl (hold.symm.trans hk)
    · exact .inr (mem_unique hk hgap)

variable (h : db.fetchByNumber b.blockNum = some b)
include h

lemma index_remove :
    ∃ db' e, db.remove b.id = .ok db' ∧ db'.blocks = db.blocks ∧ e.blockSize = 0 ∧
      db'.index = db.index.set b.blockNum e := by
  obtain ⟨e, he, hb⟩ := fetchByNumber_eq_some.1 h
  have hid : e.blockId = b.id := (blockAt_some he hb).2.1
  have he' : db.index[numFromId b.id]? = some e := he
  unfold remove
  split
  · next hnone =>
      rw [he'] at hnone
      cases hnone
  · next e' hsome =>
      rw [he'] at hsome
      cases hsome
      rw [if_pos hid]
      exact ⟨_, _, rfl, rfl, rfl, rfl⟩

lemma fetchByNumber_remove : ∃ db', db.remove b.id = .ok db' ∧
      ∀ k, db'.fetchByNumber k = if k = b.blockNum then none else db.fetchByNumber k := by
  obtain ⟨db', e', hremove, hblocks, hzero, hindex⟩ := index_remove h
  obtain ⟨e, he, -⟩ := fetchByNumber_eq_some.1 h
  have hlt : b.blockNum < db.index.length := (List.getElem?_eq_some_iff.1 he).1
  refine ⟨db', hremove, ?_⟩
  intro k
  rw [fetchByNumber, hindex, hblocks]
  split_ifs with hk
  · rw [hk, getElem?_set_self hlt]
    exact blockAt_zero _ hzero
  · rw [getElem?_set_ne (Ne.symm hk), fetchByNumber]

end BlockDatabase

/-! ## A partial map from numbers to blocks -/

/-- The calls that change the files; `last` stands for `last_id` as well. -/
inductive FileCall (H Tx : Type) where
  | store (b : SignedBlock H Tx)
  | remove (b : SignedBlock H Tx)
  | last

namespace FileCall

def mapped : FileCall H Tx → (Nat → Option (SignedBlock H Tx)) → Nat → Option (SignedBlock H Tx)
  | store b, m => Function.update m b.blockNum (some b)
  | remove b, m => Function.update m b.blockNum none
  | last, m => m

def removed : FileCall H Tx → Set Nat → Set Nat
  | store b, r => r \ {b.blockNum}
  | remove b, r => insert b.blockNum r
  | last, r => r

def Allowed : List (FileCall H Tx) → (Nat → Option (SignedBlock H Tx)) → Prop
  | [], _ => True
  | c :: calls, m => (∀ b, c = remove b → m b.blockNum = some b) ∧ Allowed calls (c.mapped m)

def mapAfter (calls : List (FileCall H Tx)) (m : Nat → Option (SignedBlock H Tx)) :
    Nat → Option (SignedBlock H Tx) :=
  calls.foldl (fun m c => c.mapped m) m

def removedAfter (calls : List (FileCall H Tx)) (r : Set Nat) : Set Nat :=
  calls.foldl (fun r c => c.removed r) r

variable [DecidableEq H]

def run : FileCall H Tx → BlockDatabase H Tx → Except ChainError (BlockDatabase H Tx)
  | store b, db => .ok (db.store b)
  | remove b, db => db.remove b.id
  | last, db => .ok db.trimmed

def runAll (db : BlockDatabase H Tx) : List (FileCall H Tx) → Except ChainError (BlockDatabase H Tx)
  | [] => .ok db
  | c :: calls => do
    let db ← c.run db
    runAll db calls

end FileCall

namespace BlockDatabase

variable [DecidableEq H] {db : BlockDatabase H Tx} {b : SignedBlock H Tx}
  {m : Nat → Option (SignedBlock H Tx)} {r : Set Nat}

/-- The files hold the blocks of the map; the entry of a number in `r` may have the id of a block that
was removed. -/
structure Holds (db : BlockDatabase H Tx) (m : Nat → Option (SignedBlock H Tx)) (r : Set Nat) :
    Prop where
  fetch : ∀ k, db.fetchByNumber k = m k
  unused : ∀ {k : Nat} {e : IndexEntry H}, db.index[k]? = some e → e.blockSize = 0 → k ∉ r →
    e.blockId = []

lemma Holds.run (h : db.Holds m r) (c : FileCall H Tx)
    (hallowed : ∀ b, c = .remove b → m b.blockNum = some b) :
    ∃ db', c.run db = .ok db' ∧ db'.Holds (c.mapped m) (c.removed r) := by
  cases c with
  | store =>
    refine ⟨_, rfl, ⟨?_, ?_⟩⟩
    · intro k
      rw [fetchByNumber_store, FileCall.mapped, Function.update_apply, h.fetch]
    · intro k e hk hnone hr
      rcases entry_store hk hnone with ⟨hne, hold | rfl⟩
      · exact h.unused hold hnone fun hmem => hr ⟨hmem, hne⟩
      · rfl
  | remove b =>
    have hfet := (h.fetch b.blockNum).trans (hallowed b rfl)
    obtain ⟨db', hremove, hfetch⟩ := fetchByNumber_remove hfet
    obtain ⟨db'', e', hremove', -, -, hindex⟩ := index_remove hfet
    obtain rfl := Except.ok.inj (hremove.symm.trans hremove')
    refine ⟨_, hremove, ⟨?_, ?_⟩⟩
    · intro k
      rw [hfetch, FileCall.mapped, Function.update_apply, h.fetch]
    · intro k e hk hnone hr
      have hne : b.blockNum ≠ k := fun heq => hr (Set.mem_insert_iff.2 (.inl heq.symm))
      rw [hindex, getElem?_set_ne hne] at hk
      exact h.unused hk hnone fun hmem => hr (Set.mem_insert_of_mem _ hmem)
  | last =>
    refine ⟨_, rfl, ⟨fun k => (fetchByNumber_trimmed db k).trans (h.fetch k), ?_⟩⟩
    intro k e hk hnone hr
    exact h.unused (getElem?_of_initial ( rdropWhile_prefix _ _) hk) hnone hr

lemma Holds.runAll {calls : List (FileCall H Tx)} (h : db.Holds m r)
    (hallowed : FileCall.Allowed calls m) : ∃ db', FileCall.runAll db calls = .ok db' ∧
      db'.Holds (FileCall.mapAfter calls m) (FileCall.removedAfter calls r) := by
  induction calls generalizing db m r with
  | nil => exact ⟨db, rfl, h⟩
  | cons c calls ih =>
    obtain ⟨db1, hrun, h1⟩ := h.run c hallowed.1
    obtain ⟨db2, hall, h2⟩ := ih h1 hallowed.2
    exact ⟨db2, bind_eq_ok.2 ⟨db1, hrun, hall⟩, h2⟩

variable {id : BlockId H}

instance : BlockFormat Nat Unit := .symbols Nat Unit

def firstBlock (header : Nat) : SignedBlock Nat Unit := ⟨header, [], []⟩

end BlockDatabase
end Graphene.Chain
