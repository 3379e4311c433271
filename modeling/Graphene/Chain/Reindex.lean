import Graphene.Chain.BlockStore

/-!
# Replaying the block database

`database::reindex` applies the stored blocks above the head of the object database and reads up to
twenty blocks ahead.  Blocks up to a point that lies `GRAPHENE_MAX_UNDO_HISTORY` below the last stored
block are only applied; the later ones are pushed, which stores them again.

When a block is missing, the loop that removes the blocks behind the gap removes everything above the
block that is *applied* next, so also blocks that have been read and are waiting to be applied.
-/

namespace Graphene.Chain

open Lib List BlockDatabase Nat

variable {H Tx TxId W R Sched : Type} [DecidableEq H] [DecidableEq TxId] [DecidableEq W]

/-! ## Applying without the check for duplicates -/

variable {b : SignedBlock H Tx} {s : ChainState H Tx W R}

namespace Rules

/-- `_apply_transaction` under `skip_transaction_dupe_check`: the index of transactions is neither
read nor written. -/
def applyTransactionSkipping (rules : Rules H Tx TxId W R) (skipDupeCheck : Bool)
    (s : ChainState H Tx W R) (trx : Tx) : Except ChainError (ChainState H Tx W R) :=
  if skipDupeCheck then do
    check (rules.checkTransaction s trx) .rejected
    rules.checkExpiration s trx
    let rest ← rules.applyOperations s trx
    .ok { s with rest := rest }
  else rules.applyTransaction s trx

def applyTransactionsSkipping (rules : Rules H Tx TxId W R) (skipDupeCheck : Bool) :
    ChainState H Tx W R → List Tx → Except ChainError (ChainState H Tx W R)
  | s, [] => .ok s
  | s, trx :: trxs => do
    let s ← rules.applyTransactionSkipping skipDupeCheck s trx
    applyTransactionsSkipping rules skipDupeCheck s trxs

/-- `_apply_block`; the checks that the other skip flags turn off are the business of the rules. -/
def applyBlockSkipping (rules : Rules H Tx TxId W R) (skipDupeCheck : Bool)
    (s : ChainState H Tx W R) (b : SignedBlock H Tx) : Except ChainError (ChainState H Tx W R) := do
  check (rules.checkBlock s b) .rejected
  rules.validateBlockHeader s b
  let s ← rules.applyTransactionsSkipping skipDupeCheck s b.transactions
  let s := { s with rest := rules.updateMissedBlocks s b }
  let s ← rules.updateGlobalDynamicData s b
  rules.finishBlock s b

/-- With the check for duplicates the block is applied as ever. -/
lemma applyBlockSkipping_false (rules : Rules H Tx TxId W R) :
    rules.applyBlockSkipping false s b = rules.applyBlock s b := by
  have hall : ∀ trxs s, rules.applyTransactionsSkipping false s trxs =
      rules.applyTransactions s trxs := by
    intro trxs
    induction trxs with
    | nil => exact fun _ => rfl
    | cons trx trxs ih =>
      intro s
      simp only [applyTransactionsSkipping, applyTransactions, ih]
      rfl
  simp [applyBlockSkipping, applyBlock, applyTransactionsOf, hall]

lemma head_of_applyBlockSkipping {rules : Rules H Tx TxId W R} {skip : Bool}
    {s' : ChainState H Tx W R} (h : rules.applyBlockSkipping skip s b = .ok s') :
    s'.headBlockId = b.id ∧ s'.headBlockNumber = b.blockNum := by
  simp only [applyBlockSkipping, updateGlobalDynamicData, finishBlock, updateSigningWitness,
    bind_eq_ok, check_eq_ok] at h
  obtain ⟨_, -, _, -, s1, -, s2, ⟨_, -, h2⟩, s3, ⟨rest, -, h3⟩, ⟨rest', active⟩, -, rest'', -, h⟩ := h
  cases h2
  cases h3
  cases h
  have hfrm := updateLastIrreversibleBlock_frame { s1 with
    headBlockNumber := b.blockNum
    headBlockId := b.id
    time := rules.timestamp b.header
    rest := rest
    lastConfirmedBlockNum :=
      Function.update s1.lastConfirmedBlockNum (rules.witness b.header) b.blockNum }
  constructor
  · exact congrArg ChainState.headBlockId hfrm
  · exact congrArg ChainState.headBlockNumber hfrm

def Applies (rules : Rules H Tx TxId W R) : ChainState H Tx W R → List (SignedBlock H Tx) → Prop
  | _, [] => True
  | s, b :: bs => ∀ skip, ∃ s', rules.applyBlockSkipping skip s b = .ok s' ∧ Applies rules s' bs

end Rules

/-! ## The loops -/

variable [BlockFormat H Tx]

/-- `while( true )` in `reindex`: remove the last block until it is not above `i`.  The entries of
the index file bound the number of rounds. -/
def BlockDatabase.dropAbove (i : Nat) :
    Nat → BlockDatabase H Tx → Except ChainError (BlockDatabase H Tx)
  | 0, db => .ok db
  | fuel + 1, db =>
    match db.lastId with
    | none => .ok db.trimmed
    | some id =>
      if numFromId id ≤ i then .ok db.trimmed
      else do
        let db ← db.trimmed.remove id
        dropAbove i fuel db

structure Replay (H Tx W R : Type) [BlockFormat H Tx] where
  state : ChainState H Tx W R
  files : BlockDatabase H Tx
  nextBlockNum : Nat
  i : Nat
  blocks : List (SignedBlock H Tx)
  /-- `skip & skip_transaction_dupe_check` -/
  skipDupeCheck : Bool

namespace Replay

/-- The branch of the loop that reads a block; `last` is the last block in the files. -/
def readBlock (rules : Rules H Tx TxId W R) (last : SignedBlock H Tx) (r : Replay H Tx W R) :
    Except ChainError (Replay H Tx W R) :=
  match r.files.fetchByNumber r.nextBlockNum with
  | some b =>
    let recent := decide (rules.timestamp last.header -
      rules.maximumTimeUntilExpiration r.state.rest ≤ rules.timestamp b.header)
    .ok { r with
      nextBlockNum := r.nextBlockNum + 1
      blocks := r.blocks ++ [b]
      skipDupeCheck := r.skipDupeCheck && !recent }
  | none => do
    let files ← r.files.dropAbove r.i r.files.index.length
    .ok { r with files := files, nextBlockNum := last.blockNum + 1 }

/-- The branch of the loop that applies a block.  With undo enabled the block is pushed: it applies,
and `push_block` stores it. -/
def applyFront (rules : Rules H Tx TxId W R) (undoPoint : Nat) (b : SignedBlock H Tx)
    (rest : List (SignedBlock H Tx)) (r : Replay H Tx W R) :
    Except ChainError (Replay H Tx W R) := do
  let s ← rules.applyBlockSkipping r.skipDupeCheck r.state b
  .ok { r with
    state := s
    files := if r.i < undoPoint then r.files else r.files.store b
    i := r.i + 1
    blocks := rest }

/-- The main loop of `reindex`. -/
def loop (rules : Rules H Tx TxId W R) (last : SignedBlock H Tx) (undoPoint : Nat) :
    Nat → Replay H Tx W R → Except ChainError (Replay H Tx W R)
  | 0, r => .ok r
  | fuel + 1, r =>
    if r.nextBlockNum ≤ last.blockNum ∧ r.blocks.length < 20 then do
      let r ← r.readBlock rules last
      loop rules last undoPoint fuel r
    else
      match r.blocks with
      | [] => .ok r
      | b :: rest => do
        let r ← r.applyFront rules undoPoint b rest
        loop rules last undoPoint fuel r

end Replay

/-- From the undo point on a block is pushed: what `push_block` does with a child of the head is what
the replay does with it. -/
lemma Node.pushBlock_replayed {rules : NodeRules H Tx TxId W R Sched} {n : Node H Tx W R Sched}
    (hn : n.Sound) (hb : n.ValidChild rules b) (now : Nat) {r : Replay H Tx W R}
    (hstate : r.state = n.state) (hskip : r.skipDupeCheck = false)
    (hfiles : r.files.Represents n.blockStore) {point : Nat} (hpoint : point ≤ r.i)
    (rest : List (SignedBlock H Tx)) : ∃ n' r', pushBlock rules now b n = .ok false n' ∧
      r.applyFront rules.toRules point b rest = .ok r' ∧ r'.state = n'.state ∧
      r'.files.Represents n'.blockStore := by
  obtain ⟨newHead, db, -, -, hpush⟩ := pushBlock_child hn.atHead hb now
  obtain ⟨s', happly⟩ := hb.applies
  have happly' : rules.applyBlock (Node.state { n with forkDb := db }) b = .ok s' := happly
  rw [hpush]
  simp only [pushOnHead, applyInSession_ok happly']
  refine ⟨_, { r with state := s', files := r.files.store b, i := r.i + 1, blocks := rest },
    rfl, ?_, ?_, ?_⟩
  · rw [Replay.applyFront, hskip, Rules.applyBlockSkipping_false, hstate, happly,
      if_neg hpoint.not_gt]
    rfl
  · split_ifs <;> rfl
  · have hstored := hfiles.store b
    split_ifs <;> exact hstored

def undoPoint (maxUndoHistory lastBlockNum : Nat) : Nat :=
  if lastBlockNum < maxUndoHistory then 0 else lastBlockNum - maxUndoHistory

/-- `database::reindex`; in the source `maxUndoHistory` is `GRAPHENE_MAX_UNDO_HISTORY`.  A number is
read or a block is applied in each round of the loop. -/
def reindex (rules : Rules H Tx TxId W R) (maxUndoHistory : Nat) (skipDupeCheck : Bool)
    (s : ChainState H Tx W R) (files : BlockDatabase H Tx) :
    Except ChainError (ChainState H Tx W R × BlockDatabase H Tx) :=
  match files.last with
  | none => .ok (s, files.trimmed)
  | some last =>
    if last.blockNum ≤ s.headBlockNumber then .ok (s, files.trimmed)
    else do
      let undoPoint := undoPoint maxUndoHistory last.blockNum
      -- the fork database starts at the head block
      check (decide (s.headBlockNumber < undoPoint ∨ s.headBlockNumber = 0 ∨
        (files.fetchByNumber s.headBlockNumber).isSome)) .notInBlockDatabase
      let r ← Replay.loop rules last undoPoint (2 * (last.blockNum + 1)) {
        state := s
        files := files.trimmed
        nextBlockNum := s.headBlockNumber + 1
        i := s.headBlockNumber + 1
        blocks := []
        skipDupeCheck := skipDupeCheck }
      .ok (r.state, r.files)

variable {db : BlockDatabase H Tx}

namespace BlockDatabase

lemma dropAbove_ok (i fuel : Nat) (db : BlockDatabase H Tx)
    (hfuel : ∀ k, i + fuel < k → db.fetchByNumber k = none) : ∃ db', db.dropAbove i fuel = .ok db' ∧
      ∀ k, db'.fetchByNumber k = if k ≤ i then db.fetchByNumber k else none := by
  induction fuel generalizing db with
  | zero =>
    refine ⟨db, rfl, ?_⟩
    intro k
    split_ifs with hk
    · rfl
    · exact hfuel k (Nat.lt_of_not_le hk)
  | succ fuel ih =>
    rcases lastId_cases db with ⟨hnone, hemp⟩ | ⟨b, hsome, hlast⟩
    · refine ⟨db.trimmed, by simp only [dropAbove, hnone], ?_⟩
      intro k
      rw [fetchByNumber_trimmed, hemp, ite_self]
    · by_cases hle : numFromId b.id ≤ i
      · refine ⟨db.trimmed, by simp only [dropAbove, hsome, hle, if_true], ?_⟩
        intro k
        rw [fetchByNumber_trimmed]
        split_ifs with hk
        · rfl
        · exact hlast.above k (lt_of_le_of_lt hle (Nat.lt_of_not_le hk))
      · have hfet : db.trimmed.fetchByNumber b.blockNum = some b := by
          rw [fetchByNumber_trimmed]
          exact hlast.fetched
        obtain ⟨db1, hrm, hfetch⟩ := fetchByNumber_remove hfet
        have hb : i < b.blockNum := Nat.lt_of_not_le hle
        -- the next round starts below `b`
        have hfuel1 : ∀ k, i + fuel < k → db1.fetchByNumber k = none := by
          intro k hk
          rw [hfetch, fetchByNumber_trimmed]
          split_ifs with hself
          · rfl
          · have hbound : b.blockNum ≤ i + (fuel + 1) := by
              refine le_of_not_gt fun hgt => ?_
              have hbad := hfuel _ hgt
              rw [hlast.fetched] at hbad
              cases hbad
            exact hlast.above k (by omega)
        obtain ⟨db', hdrop, hdro⟩ := ih db1 hfuel1
        refine ⟨db', ?_, ?_⟩
        · simp only [dropAbove, hsome, hle, if_false, hrm]
          exact hdrop
        · intro k
          rw [hdro, hfetch, fetchByNumber_trimmed]
          split_ifs with hk hself
          · omega
          · rfl
          · rfl

lemma fetchByNumber_of_length_le {k : Nat} (h : db.index.length ≤ k) :
    db.fetchByNumber k = none := by
  rw [fetchByNumber, getElem?_eq_none h]
  rfl

lemma fetchByNumber_store_again (h : db.fetchByNumber b.blockNum = some b) (k : Nat) :
    (db.store b).fetchByNumber k = db.fetchByNumber k := by
  rw [fetchByNumber_store]
  split_ifs with hk
  · rw [hk, h]
  · rfl

end BlockDatabase

/-! ## Runs of the loop -/

variable {bs : List (SignedBlock H Tx)} {r : Replay H Tx W R} {last : SignedBlock H Tx} {fuel : Nat}
  {rest : List (SignedBlock H Tx)} {i gap : Nat}

namespace Replay

variable {rules : Rules H Tx TxId W R}

section Rounds

variable {undoPoint : Nat}

variable (h : ¬ (r.nextBlockNum ≤ last.blockNum ∧ r.blocks.length < 20))
include h

lemma loop_apply
    (hblo : r.blocks = b :: rest) : loop rules last undoPoint (fuel + 1) r =
      r.applyFront rules undoPoint b rest >>= loop rules last undoPoint fuel := by
  rw [loop, if_neg h]
  split
  · next hnil =>
      rw [hnil] at hblo
      cases hblo
  · next c cs hcons =>
      rw [hcons] at hblo
      cases hblo
      rfl

lemma loop_end (hblo : r.blocks = []) : loop rules last undoPoint (fuel + 1) r = .ok r := by
  rw [loop, if_neg h]
  split
  · rfl
  · next c cs hcons =>
      rw [hcons] at hblo
      cases hblo

end Rounds

/-- The head of a state is the block that the files had at its number. -/
def HeadIn (files : BlockDatabase H Tx) (s : ChainState H Tx W R) : Prop :=
  ∀ b, files.fetchByNumber s.headBlockNumber = some b → s.headBlockId = b.id

/-- What was read are blocks of `files`, from number `i` on. -/
def ReadFrom (files : BlockDatabase H Tx) (i : Nat) (blocks : List (SignedBlock H Tx)) : Prop :=
  ∀ j b, blocks[j]? = some b → files.fetchByNumber (i + j) = some b

variable {files : BlockDatabase H Tx}

lemma ReadFrom.tail (h : ReadFrom files i (b :: bs)) : ReadFrom files (i + 1) bs := by
  intro j c hc
  rw [add_assoc, add_comm 1 j]
  exact h (j + 1) c hc

lemma ReadFrom.head (h : ReadFrom files i (b :: bs)) :
    files.fetchByNumber i = some b ∧ b.blockNum = i :=
  ⟨h 0 b rfl, blockNum_of_fetchByNumber (h 0 b rfl)⟩

lemma applyFront_ok (h : rules.Applies r.state (b :: bs))
    (undoPoint : Nat) :
    ∃ s, rules.Applies s bs ∧ s.headBlockId = b.id ∧ s.headBlockNumber = b.blockNum ∧
      r.applyFront rules undoPoint b rest = .ok { r with
        state := s
        files := if r.i < undoPoint then r.files else r.files.store b
        i := r.i + 1
        blocks := rest } := by
  obtain ⟨s, happ, hrest⟩ := h r.skipDupeCheck
  have hhead := Rules.head_of_applyBlockSkipping happ
  refine ⟨s, hrest, hhead.1, hhead.2, ?_⟩
  simp only [applyFront, happ]
  rfl

/-- When nothing is left to read, the waiting blocks are applied, and those that are pushed are
stored. -/
lemma loop_drain (undoPoint : Nat) (hend : last.blockNum < r.nextBlockNum)
    (hfuel : r.blocks.length ≤ fuel) (hread : ReadFrom files r.i r.blocks)
    (happ : rules.Applies r.state r.blocks) (hnum : r.state.headBlockNumber + 1 = r.i)
    (hhead : HeadIn files r.state) : ∃ r', loop rules last undoPoint fuel r = .ok r' ∧
      r'.state.headBlockNumber + 1 = r.i + r.blocks.length ∧ HeadIn files r'.state ∧
      ∀ k, r'.files.fetchByNumber k =
        if undoPoint ≤ k ∧ r.i ≤ k ∧ k < r.i + r.blocks.length then files.fetchByNumber k
        else r.files.fetchByNumber k := by
  induction fuel generalizing r with
  | zero =>
    have hnil : r.blocks = [] := length_eq_zero_iff.1 (le_zero.1 hfuel)
    refine ⟨r, rfl, by rw [hnil]; exact hnum, hhead, ?_⟩
    intro k
    rw [hnil, if_neg]
    simp only [length_nil]
    omega
  | succ fuel ih =>
    have hreads : ¬ (r.nextBlockNum ≤ last.blockNum ∧ r.blocks.length < 20) := by omega
    cases hblo : r.blocks with
    | nil =>
      refine ⟨r, loop_end hreads hblo, hnum, hhead, ?_⟩
      intro k
      rw [if_neg]
      simp only [length_nil]
      omega
    | cons b rest =>
      rw [hblo] at hread happ hfuel
      rcases applyFront_ok happ undoPoint with
        ⟨s, hrest, hid, hbln, hfrt⟩
      obtain ⟨hfetch, hb⟩ := hread.head
      have hhead' : HeadIn files s := by
        intro c hc
        rw [hbln, hb, hfetch] at hc
        cases hc
        exact hid
      rcases ih (r := { r with
          state := s
          files := if r.i < undoPoint then r.files else r.files.store b
          i := r.i + 1
          blocks := rest }) hend (le_of_succ_le_succ hfuel) hread.tail hrest
          (by rw [hbln, hb]) hhead' with ⟨r', hloop, hnum', hhei, hfiles⟩
      refine ⟨r', ?_, ?_, hhei, ?_⟩
      · rwa [loop_apply hreads hblo, hfrt]
      · rw [hnum', length_cons]
        dsimp only
        omega
      · intro k
        rw [hfiles, length_cons]
        dsimp only
        by_cases hk : k = r.i
        · -- the block that was just applied
          subst hk
          have hnot : ¬ (undoPoint ≤ r.i ∧ r.i + 1 ≤ r.i ∧ r.i < r.i + 1 + rest.length) := by
            omega
          rw [if_neg hnot]
          by_cases hpush : r.i < undoPoint
          · rw [if_pos hpush, if_neg (by omega)]
          · rw [if_neg hpush, if_pos (by omega), fetchByNumber_store, if_pos hb.symm, hfetch]
        · have hfile : (if r.i < undoPoint then r.files else r.files.store b).fetchByNumber k =
              r.files.fetchByNumber k := by
            split_ifs
            · rfl
            · rw [fetchByNumber_store, if_neg (by rw [hb]; exact hk)]
          rw [hfile]
          refine if_congr ?_ rfl rfl
          omega

/-- The state of the loop while all blocks that it asked for were there: it started above the number
`start`, `rest` are the blocks between the last one read and the gap. -/
structure Reading (rules : Rules H Tx TxId W R) (files : BlockDatabase H Tx) (start gap : Nat)
    (r : Replay H Tx W R) (rest : List (SignedBlock H Tx)) : Prop where
  fetch : ∀ k, r.files.fetchByNumber k = files.fetchByNumber k
  number : r.state.headBlockNumber + 1 = r.i
  headIn : HeadIn files r.state
  next : r.nextBlockNum = r.i + r.blocks.length
  stored : ReadFrom files r.i (r.blocks ++ rest)
  applies : rules.Applies r.state (r.blocks ++ rest)
  count : r.i + (r.blocks ++ rest).length = gap
  started : start + 1 ≤ r.i
  /-- blocks are applied only when twenty are waiting -/
  ahead : r.i = start + 1 ∨ 19 ≤ r.blocks.length
  size : r.blocks.length ≤ 20

/-- The number of the block to be applied next at the time when the gap is found. -/
def atGap (start gap : Nat) : Nat :=
  max (start + 1) (gap - 19)

/-- What is left in the files: nothing from the gap on, and of the blocks before it not those that
were waiting at the gap and were applied without being pushed. -/
def Kept (start gap lastBlockNum undoPoint k : Nat) : Prop :=
  k < gap ∧ ¬ (gap < lastBlockNum ∧ atGap start gap < k ∧ k < undoPoint)

instance (start gap lastBlockNum undoPoint k : Nat) :
    Decidable (Kept start gap lastBlockNum undoPoint k) :=
  inferInstanceAs (Decidable (_ ∧ _))

/-- Everything before the gap is applied. -/
abbrev Replayed (last : SignedBlock H Tx) (undoPoint : Nat) (files : BlockDatabase H Tx)
    (start gap : Nat) (r : Replay H Tx W R) : Prop :=
  r.state.headBlockNumber + 1 = gap ∧ HeadIn files r.state ∧ ∀ k, r.files.fetchByNumber k =
    if Kept start gap last.blockNum undoPoint k then files.fetchByNumber k else none

namespace Reading

variable {start : Nat}

lemma read (h : Reading rules files start gap r (b :: rest)) (hroom : r.blocks.length < 20)
    (last : SignedBlock H Tx) :
    ∃ r', r.readBlock rules last = .ok r' ∧ Reading rules files start gap r' rest ∧
      r'.nextBlockNum = r.nextBlockNum + 1 ∧ r'.blocks.length = r.blocks.length + 1 := by
  have hfetch : r.files.fetchByNumber r.nextBlockNum = some b := by
    rw [h.fetch, h.next]
    exact h.stored _ b (by simp)
  have happe : ∀ bs : List (SignedBlock H Tx), (bs ++ [b]) ++ rest = bs ++ b :: rest := by
    intro bs
    rw [append_assoc, singleton_append]
  have hlen : (r.blocks ++ [b]).length = r.blocks.length + 1 := length_append
  obtain ⟨skip, hread⟩ : ∃ skip, r.readBlock rules last = .ok { r with
      nextBlockNum := r.nextBlockNum + 1
      blocks := r.blocks ++ [b]
      skipDupeCheck := skip } := by
    simp only [readBlock, hfetch]
    exact ⟨_, rfl⟩
  refine ⟨_, hread, ⟨h.fetch, h.number, h.headIn, ?_, ?_, ?_, ?_, h.started, ?_, ?_⟩, rfl, hlen⟩
  · rw [hlen, ← add_assoc, ← h.next]
  · rw [happe]
    exact h.stored
  · rw [happe]
    exact h.applies
  · rw [happe]
    exact h.count
  · exact h.ahead.imp_right fun hle => by rw [hlen]; omega
  · rwa [hlen]

lemma apply (h : Reading rules files start gap r rest) (hblo : r.blocks = b :: bs)
    (hfull : r.blocks.length = 20) (undoPoint : Nat) :
    ∃ r', r.applyFront rules undoPoint b bs = .ok r' ∧ Reading rules files start gap r' rest ∧
      r'.nextBlockNum = r.nextBlockNum ∧ r'.blocks.length + 1 = r.blocks.length := by
  have hap := h.applies
  have hsto := h.stored
  have hcount := h.count
  have hnext := h.next
  rw [hblo] at hap hsto hcount hnext hfull
  obtain ⟨s, hrest, hid, hnum, hfrt⟩ := applyFront_ok hap undoPoint
  obtain ⟨hfetch, hb⟩ := hsto.head
  simp only [length_cons, length_append, cons_append] at hcount hnext hfull
  refine ⟨_, hfrt, ⟨?_, ?_, ?_, ?_, hsto.tail, hrest, ?_, ?_, ?_, ?_⟩, rfl, by rw [hblo]; rfl⟩
  · -- pushing stores the block that is already there
    intro k
    split_ifs
    · exact h.fetch k
    · rw [fetchByNumber_store_again, h.fetch]
      rw [hb, h.fetch, hfetch]
  · rw [hnum, hb]
  · intro c hc
    rw [hnum, hb, hfetch] at hc
    cases hc
    exact hid
  · dsimp only
    omega
  · rw [length_append]
    dsimp only
    omega
  · exact le_succ_of_le h.started
  · exact Or.inr (succ.inj hfull).ge
  · exact le_of_succ_le hfull.le

lemma findGap (h : Reading rules files start gap r []) (hroom : r.blocks.length < 20)
    (hgap : files.fetchByNumber gap = none) (last : SignedBlock H Tx) :
    ∃ r', r.readBlock rules last = .ok r' ∧ r'.nextBlockNum = last.blockNum + 1 ∧
      r'.state = r.state ∧ r'.blocks = r.blocks ∧ r'.i = r.i ∧ r.i = atGap start gap ∧
      ∀ k, r'.files.fetchByNumber k = if k ≤ r.i then files.fetchByNumber k else none := by
  have hcount := h.count
  have hsta := h.started
  rw [append_nil] at hcount
  have hnone : r.files.fetchByNumber r.nextBlockNum = none := by
    rw [h.fetch, h.next, hcount, hgap]
  have hi : r.i = atGap start gap := by
    unfold atGap
    rcases h.ahead with hfirst | hmany <;> omega
  rcases dropAbove_ok r.i r.files.index.length r.files
      (fun k hk => fetchByNumber_of_length_le (by omega)) with ⟨db, hdrop, hfetch⟩
  refine ⟨{ r with files := db, nextBlockNum := last.blockNum + 1 }, ?_, rfl, rfl, rfl, rfl, hi, ?_⟩
  · simp only [readBlock, hnone, hdrop]
    rfl
  · intro k
    rw [hfetch, h.fetch]

lemma finish (h : Reading rules files start gap r rest) (hlast : files.IsLast last)
    (hend : last.blockNum < r.nextBlockNum) (undoPoint : Nat) (hfuel : r.blocks.length ≤ fuel) :
    ∃ r', loop rules last undoPoint fuel r = .ok r' ∧ Replayed last undoPoint files start gap r' := by
  have hnil : rest = [] := by
    cases rest with
    | nil => rfl
    | cons b =>
      have hfetch : files.fetchByNumber r.nextBlockNum = some b := by
        rw [h.next]
        exact h.stored _ b (by simp)
      rw [hlast.above _ hend] at hfetch
      cases hfetch
  subst hnil
  have hsto := h.stored
  have hap := h.applies
  have hcount := h.count
  have hnext := h.next
  rw [append_nil] at hsto hap hcount
  rcases loop_drain undoPoint hend hfuel hsto hap h.number h.headIn with
    ⟨r', hloop, hnumber, hhead, hfiles⟩
  refine ⟨r', hloop, hnumber.trans hcount, hhead, ?_⟩
  intro k
  rw [hfiles, h.fetch, ite_self]
  split_ifs with hkept
  · rfl
  · -- what is not kept lies above the last block
    refine hlast.above k ?_
    by_contra hle
    refine hkept ⟨?_, ?_⟩ <;> omega

lemma finishGap (h : Reading rules files start gap r []) (hgap : files.fetchByNumber gap = none)
    (hlast : files.IsLast last) (hmore : gap ≤ last.blockNum) {r1 : Replay H Tx W R}
    (hnext : last.blockNum < r1.nextBlockNum) (hst : r1.state = r.state)
    (hblo : r1.blocks = r.blocks) (hi : r1.i = r.i) (hatGap : r.i = atGap start gap)
    (hfetch : ∀ k, r1.files.fetchByNumber k = if k ≤ r.i then files.fetchByNumber k else none)
    {undoPoint : Nat} (hfuel : r.blocks.length ≤ fuel) :
    ∃ r', loop rules last undoPoint fuel r1 = .ok r' ∧ Replayed last undoPoint files start gap r' := by
  have hbehind : gap < last.blockNum := by
    refine lt_of_le_of_ne hmore ?_
    intro heq
    rw [heq, hlast.fetched] at hgap
    cases hgap
  have hsto := h.stored
  have hap := h.applies
  have hcount := h.count
  rw [append_nil] at hsto hap hcount
  have hfuel1 : r1.blocks.length ≤ fuel := by rwa [hblo]
  rcases loop_drain undoPoint hnext hfuel1 (by rw [hi, hblo]; exact hsto)
      (by rw [hst, hblo]; exact hap) (by rw [hst, hi]; exact h.number) (by rw [hst]; exact h.headIn) with
    ⟨r', hloop, hnumber, hhead, hfiles⟩
  refine ⟨r', hloop, ?_, hhead, ?_⟩
  · rw [hnumber, hi, hblo, hcount]
  · intro k
    rw [hfiles, hfetch, hi, hblo, hcount]
    have hkept : Kept start gap last.blockNum undoPoint k ↔
        k < gap ∧ ¬ (gap < last.blockNum ∧ r.i < k ∧ k < undoPoint) := by
      rw [hatGap]
      rfl
    by_cases hk : k ≤ r.i
    · -- not removed; at the gap itself nothing was stored
      rw [if_pos hk, ite_self]
      by_cases hlt : k < gap
      · rw [if_pos (hkept.2 ⟨hlt, by omega⟩)]
      · have heq : k = gap := by omega
        rw [if_neg (fun hbad => hlt hbad.1), heq, hgap]
    · rw [if_neg hk]
      refine if_congr ?_ rfl rfl
      rw [hkept]
      omega

end Reading

lemma loop_ok {start : Nat} (hgap : files.fetchByNumber gap = none) (hlast : files.IsLast last)
    (undoPoint : Nat) (h : Reading rules files start gap r rest)
    (hfuel : 2 * (last.blockNum + 1 - r.nextBlockNum) + r.blocks.length ≤ fuel) :
    ∃ r', loop rules last undoPoint fuel r = .ok r' ∧ Replayed last undoPoint files start gap r' := by
  induction fuel generalizing r rest with
  | zero =>
    -- nothing is left to read or to apply
    have hnil : r.blocks = [] := length_eq_zero_iff.1 (by omega)
    have hend : last.blockNum < r.nextBlockNum := by omega
    have hfuel0 : r.blocks.length ≤ 0 := by rw [hnil]; exact le_rfl
    exact h.finish hlast hend undoPoint hfuel0
  | succ fuel ih =>
    by_cases hreads : r.nextBlockNum ≤ last.blockNum ∧ r.blocks.length < 20
    · rw [loop, if_pos hreads]
      cases rest with
      | nil =>
        have hmore : gap ≤ last.blockNum := by
          have hcount := h.count
          have hnext := h.next
          rw [append_nil] at hcount
          omega
        rcases h.findGap hreads.2 hgap last with
          ⟨r1, hread, hnext, hst, hblo, hi, hatGap, hfiles⟩
        rw [hread]
        exact h.finishGap hgap hlast hmore (by omega) hst hblo hi hatGap hfiles (by omega)
      | cons =>
        obtain ⟨r1, hread, hr1, hnext, hlen⟩ := h.read hreads.2 last
        rw [hread]
        exact ih hr1 (by omega)
    · by_cases hend : last.blockNum < r.nextBlockNum
      · exact h.finish hlast hend undoPoint (by omega)
      · have hfull : r.blocks.length = 20 := by
          have := h.size
          omega
        cases hblo : r.blocks with
        | nil =>
          rw [hblo] at hfull
          cases hfull
        | cons =>
          obtain ⟨r1, hfrt, hr1, hnext, hlen⟩ := h.apply hblo hfull undoPoint
          rw [loop_apply hreads hblo, hfrt]
          exact ih hr1 (by omega)

end Replay

/-! ## The whole replay -/

def BlockDatabase.lastNum (files : BlockDatabase H Tx) : Nat :=
  (files.last.map SignedBlock.blockNum).getD 0

/-- Block `gap` is missing, and the blocks before it are there. -/
structure GapAt (files : BlockDatabase H Tx) (gap : Nat) : Prop where
  pos : 1 ≤ gap
  present : ∀ k, 1 ≤ k → k < gap → (files.fetchByNumber k).isSome
  missing : files.fetchByNumber gap = none

/-- The head of `s` is the block with its number in the files, and the blocks between it and the gap
apply. -/
def Consistent (rules : Rules H Tx TxId W R) (files : BlockDatabase H Tx) (gap : Nat)
    (s : ChainState H Tx W R) : Prop :=
  Replay.HeadIn files s ∧ ∃ bs, Replay.ReadFrom files (s.headBlockNumber + 1) bs ∧
    s.headBlockNumber + 1 + bs.length = gap ∧ rules.Applies s bs

lemma reindex_ok {rules : Rules H Tx TxId W R} (maxUndoHistory : Nat) (skipDupeCheck : Bool)
    {files : BlockDatabase H Tx} (hgap : GapAt files gap) (hcons : Consistent rules files gap s) :
    ∃ s' files', reindex rules maxUndoHistory skipDupeCheck s files = .ok (s', files') ∧
      s'.headBlockNumber + 1 = gap ∧ Replay.HeadIn files s' ∧ ∀ k, files'.fetchByNumber k =
        if Replay.Kept s.headBlockNumber gap files.lastNum (undoPoint maxUndoHistory files.lastNum) k
        then files.fetchByNumber k else none := by
  obtain ⟨hhead, bs, hread, hcount, hap⟩ := hcons
  -- nothing is to be replayed: the files end with the head block
  have hidle : files.lastNum ≤ s.headBlockNumber →
      (∀ k, files.lastNum < k → files.fetchByNumber k = none) →
      s.headBlockNumber + 1 = gap ∧ ∀ k, files.trimmed.fetchByNumber k =
        if Replay.Kept s.headBlockNumber gap files.lastNum (undoPoint maxUndoHistory files.lastNum) k
        then files.fetchByNumber k else none := by
    intro hlow habv
    have hnil : bs = [] := by
      cases bs with
      | nil => rfl
      | cons =>
        have hfetch := hread.head.1
        rw [habv _ (by omega)] at hfetch
        cases hfetch
    rw [hnil, length_nil] at hcount
    refine ⟨by omega, ?_⟩
    intro k
    rw [fetchByNumber_trimmed]
    split_ifs with hkept
    · rfl
    · refine habv k ?_
      unfold Replay.Kept at hkept
      omega
  cases hlast : files.last with
  | none =>
    have hnum : files.lastNum = 0 := by
      rw [lastNum, hlast]
      rfl
    have hemp : ∀ k, files.fetchByNumber k = none := by
      intro k
      rcases lastId_cases files with ⟨-, hemp⟩ | ⟨b, -, hb⟩
      · exact hemp k
      · rw [last_eq_some.2 hb] at hlast
        cases hlast
    obtain ⟨hgan, hfiles⟩ := hidle (by omega) (fun k _ => hemp k)
    exact ⟨s, files.trimmed, by simp only [reindex, hlast], hgan, hhead, hfiles⟩
  | some last =>
    have hnum : files.lastNum = last.blockNum := by
      rw [lastNum, hlast]
      rfl
    have hisl : files.IsLast last := last_eq_some.1 hlast
    by_cases hle : last.blockNum ≤ s.headBlockNumber
    · obtain ⟨hgan, hfiles⟩ := hidle (by omega) (fun k hk => hisl.above k (by omega))
      exact ⟨s, files.trimmed, by simp only [reindex, hlast, hle, if_true], hgan, hhead, hfiles⟩
    · have hstart : Replay.Reading rules files s.headBlockNumber gap {
          state := s
          files := files.trimmed
          nextBlockNum := s.headBlockNumber + 1
          i := s.headBlockNumber + 1
          blocks := []
          skipDupeCheck := skipDupeCheck } bs :=
        ⟨fetchByNumber_trimmed files, rfl, hhead, rfl, hread, hap, hcount, le_rfl,
          Or.inl rfl, zero_le _⟩
      have hfuel : 2 * (last.blockNum + 1 - (s.headBlockNumber + 1)) +
          ([] : List (SignedBlock H Tx)).length ≤ 2 * (last.blockNum + 1) := by
        rw [length_nil]
        omega
      rcases Replay.loop_ok hgap.missing hisl (undoPoint maxUndoHistory last.blockNum) hstart
        hfuel with ⟨r, hloop, hend, hhei, hfiles⟩
      have hchk : (s.headBlockNumber < undoPoint maxUndoHistory last.blockNum ∨
          s.headBlockNumber = 0 ∨ (files.fetchByNumber s.headBlockNumber).isSome) := by
        rcases Nat.eq_zero_or_pos s.headBlockNumber with hzero | hpos
        · exact Or.inr (Or.inl hzero)
        · exact Or.inr (Or.inr (hgap.present _ hpos (by omega)))
      rw [hnum]
      refine ⟨r.state, r.files, ?_, hend, hhei, hfiles⟩
      simp only [reindex, hlast, hle, if_false, check, hchk, decide_true, if_true, hloop]
      rfl

/-- A replay from below the gap always ends at the block before it.  The files then hold exactly the
blocks before the gap unless there are blocks behind the gap, at least two blocks were waiting when
it was found, and the second of them was not pushed. -/
theorem reindex_stops_at_gap (rules : Rules H Tx TxId W R) (maxUndoHistory : Nat)
    (skipDupeCheck : Bool) (files : BlockDatabase H Tx) (gap : Nat) (hgap : GapAt files gap)
    (s : ChainState H Tx W R) (hcons : Consistent rules files gap s) :
    ∃ s' files', reindex rules maxUndoHistory skipDupeCheck s files = .ok (s', files') ∧
      s'.headBlockNumber + 1 = gap ∧ Replay.HeadIn files s' ∧
      ((∀ k, files'.fetchByNumber k = if k < gap then files.fetchByNumber k else none) ↔
        (gap < files.lastNum → min gap (undoPoint maxUndoHistory files.lastNum) ≤
          Replay.atGap s.headBlockNumber gap + 1)) := by
  rcases reindex_ok maxUndoHistory skipDupeCheck hgap hcons with
    ⟨s', files', hreindex, hnumber, hhead, hfiles⟩
  refine ⟨s', files', hreindex, hnumber, hhead, ?_⟩
  constructor
  · intro hexact hbehind
    -- otherwise the second waiting block is lost
    by_contra hlost
    have hfetch := hfiles (Replay.atGap s.headBlockNumber gap + 1)
    rw [hexact, if_pos (by omega), if_neg (by unfold Replay.Kept; omega)] at hfetch
    have hpresent := hgap.present (Replay.atGap s.headBlockNumber gap + 1) (by omega) (by omega)
    rw [hfetch] at hpresent
    cases hpresent
  · intro hcond k
    rw [hfiles]
    refine if_congr ?_ rfl rfl
    constructor
    · exact fun h => h.1
    · refine fun hlt => ⟨hlt, ?_⟩
      rintro ⟨hbehind, hwaiting, happlied⟩
      have hbound := hcond hbehind
      omega

variable {num : Nat}

namespace LostBlocks

def b1 := Node.plainBlock ⟨1, 0, true⟩ []
def b2 := Node.plainBlock ⟨2, 0, true⟩ b1.id

def far (num : Nat) : SignedBlock PlainHeader (Nat × Nat) :=
  Node.plainBlock ⟨num, 0, true⟩ (List.replicate (num - 1) ⟨0, 0, true⟩)

def files (num : Nat) : BlockDatabase PlainHeader (Nat × Nat) :=
  ((BlockDatabase.empty.store b1).store b2).store (far num)

section

variable (h : 3 < num)
include h

lemma blockNum_far : (far num).blockNum = num := by
  change (replicate (num - 1) _).length + 1 = num
  rw [length_replicate]
  omega

lemma fetchByNumber_files (k : Nat) :
    (files num).fetchByNumber k = if k = num then some (far num) else if k = 2 then some b2
      else if k = 1 then some b1 else none := by
  rw [files, fetchByNumber_store, fetchByNumber_store, fetchByNumber_store, blockNum_far h]
  rfl

lemma gapAt : GapAt (files num) 3 := by
  refine ⟨by decide, ?_, ?_⟩
  · intro k hpos hlt
    have hk : k = 1 ∨ k = 2 := by omega
    rw [fetchByNumber_files h, if_neg (by omega)]
    rcases hk with rfl | rfl <;> rfl
  · rw [fetchByNumber_files h, if_neg (by omega)]
    rfl

lemma lastNum_files : (files num).lastNum = num := by
  have hlast : (files num).IsLast (far num) := by
    refine ⟨?_, ?_⟩
    · rw [fetchByNumber_files h, if_pos (blockNum_far h)]
    · intro k hk
      rw [blockNum_far h] at hk
      rw [fetchByNumber_files h, if_neg (by omega), if_neg (by omega), if_neg (by omega)]
  rw [lastNum, last_eq_some.2 hlast]
  exact blockNum_far h

lemma consistent : Consistent plainRules (files num) 3 (plainGenesis [0, 1, 2]) := by
  refine ⟨?_, [b1, b2], ?_, rfl, ?_⟩
  · intro b hb
    cases hb
  · intro j b hb
    change (files num).fetchByNumber (1 + j) = some b
    rw [fetchByNumber_files h]
    match j, hb with
    | 0, hb =>
      cases hb
      exact (if_neg (by omega)).trans rfl
    | 1, hb =>
      cases hb
      exact (if_neg (by omega)).trans rfl
  · intro skip
    refine ⟨_, rfl, ?_⟩
    intro skip
    exact ⟨_, rfl, trivial⟩

end

/-- A block behind the gap that is not far from it does no harm. -/
theorem reindex_stops_at_gap_near :
    ∃ s' files', reindex plainRules grapheneMaxUndoHistory true (plainGenesis [0, 1, 2]) (files 5) =
        .ok (s', files') ∧ s'.headBlockNumber + 1 = 3 ∧
      ∀ k, files'.fetchByNumber k = if k < 3 then (files 5).fetchByNumber k else none := by
  have hnum : 3 < 5 := by decide
  rcases reindex_stops_at_gap plainRules grapheneMaxUndoHistory true (files 5) 3 (gapAt hnum)
    (plainGenesis [0, 1, 2]) (consistent hnum) with ⟨s', files', hreindex, hnumber, -, hexact⟩
  refine ⟨s', files', hreindex, hnumber, hexact.2 ?_⟩
  intro _
  decide

/-- Block 3 is missing and block 10003 is there.  When the gap is found, block 1 is applied next, so
block 2 is removed; it is then applied with undo disabled, and not stored. -/
theorem reindex_loses_block :
    ∃ s' files', reindex plainRules grapheneMaxUndoHistory true (plainGenesis [0, 1, 2])
        (files 10003) = .ok (s', files') ∧ s'.headBlockNumber = 2 ∧ s'.headBlockId = b2.id ∧
      (files 10003).fetchByNumber 2 = some b2 ∧ files'.fetchByNumber 2 = none := by
  have hnum : 3 < 10003 := by decide
  have hb2 : (files 10003).fetchByNumber 2 = some b2 := by
    rw [fetchByNumber_files hnum]
    rfl
  rcases reindex_ok grapheneMaxUndoHistory true (gapAt hnum) (consistent hnum) with
    ⟨s', files', hreindex, hnumber, hhead, hfiles⟩
  have hheadNum : s'.headBlockNumber = 2 := succ.inj hnumber
  refine ⟨s', files', hreindex, hheadNum, ?_, hb2, ?_⟩
  · exact hhead b2 (by rw [hheadNum, hb2])
  · rw [hfiles, lastNum_files hnum, if_neg (by decide)]

end LostBlocks

end Graphene.Chain
