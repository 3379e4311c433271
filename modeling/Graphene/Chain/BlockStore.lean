import Graphene.Chain.Atomicity
import Graphene.Chain.BlockDatabase
import Graphene.Chain.NodeSteps

/-!
# The block store and the chain

`push_block` stores every block that it has applied, also the blocks of a new branch, and takes nothing
back when the switch is given up.  Restoring the old branch stores its blocks again.  When a switch
cannot be unwound, the blocks above the chain's head remain in the store.
-/

namespace Graphene.Chain

open Lib List Function ForkDatabase
open ForkItem (data)

variable {H Tx TxId W R Sched : Type} [DecidableEq H] [DecidableEq TxId] [DecidableEq W]

/-- The block database holds these blocks, and no block was ever removed from it. -/
structure BlockDatabase.Represents [BlockFormat H Tx] (db : BlockDatabase H Tx)
    (store : Nat → Option (SignedBlock H Tx)) : Prop where
  fetch : ∀ k, db.fetchByNumber k = store k
  unused : ∀ {k : Nat} {e : IndexEntry H}, db.index[k]? = some e → e.blockSize = 0 →
    e.blockId = []

variable {id : BlockId H} {rules : NodeRules H Tx TxId W R Sched} {n n' : Node H Tx W R Sched}
    {b : SignedBlock H Tx} {bs : List (SignedBlock H Tx)} {bottom top : BlockId H}
    {db : ForkDatabase H Tx Sched} {e : ChainError} {newHead : ForkItem H Tx Sched}

namespace BlockDatabase

lemma Represents.store [BlockFormat H Tx] {db : BlockDatabase H Tx} {store : Nat → Option (SignedBlock H Tx)}
    (h : db.Represents store) (b : SignedBlock H Tx) :
    (db.store b).Represents (update store b.blockNum (some b)) where
  fetch := by
    intro k
    rw [fetchByNumber_store, update_apply, h.fetch]
  unused := by
    intro k e hk hzero
    rcases entry_store hk hzero with ⟨-, hold | rfl⟩
    · exact h.unused hold hzero
    · rfl

end BlockDatabase

variable {received : SignedBlock H Tx → Prop} {s : ChainState H Tx W R}
    {items : List (ForkItem H Tx Sched)}

namespace Node

def getBlockIdForNum (n : Node H Tx W R Sched) (num : Nat) : Except ChainError (BlockId H) :=
  match n.blockStore num with
  | none => .error .notInBlockDatabase
  | some b => .ok b.id

def isKnownBlock (n : Node H Tx W R Sched) (id : BlockId H) : Bool :=
  (n.forkDb.fetchBlock id).isSome ||
    match n.blockStore (numFromId id) with
    | none => false
    | some b => decide (b.id = id)

/-! ## Storing a branch -/

def storeAll (store : Nat → Option (SignedBlock H Tx)) (bs : List (SignedBlock H Tx)) :
    Nat → Option (SignedBlock H Tx) :=
  bs.foldl (fun store b => update store b.blockNum (some b)) store

def filesOf [BlockFormat H Tx] (bs : List (SignedBlock H Tx)) : BlockDatabase H Tx :=
  bs.foldl BlockDatabase.store .empty

lemma represents_filesOf [BlockFormat H Tx] :
    (filesOf bs).Represents (storeAll (fun _ => none) bs) := by
  suffices h : ∀ (db : BlockDatabase H Tx) (store : Nat → Option (SignedBlock H Tx)),
      db.Represents store → (bs.foldl BlockDatabase.store db).Represents (storeAll store bs) from
    h _ _ ⟨fun _ => rfl, fun h => by cases h⟩
  induction bs with
  | nil => exact fun db store h => h
  | cons b bs ih => exact fun db store h => ih _ _ (h.store b)

lemma NodeStep.stores (h : NodeStep rules received n n') :
    ∃ bs, n'.blockStore = storeAll n.blockStore bs := by
  cases h with
  | @tried b hb =>
    refine ⟨[], ?_⟩
    unfold applyInSession
    cases rules.applyBlock n.state b <;> rfl
  | popped locals h =>
    obtain ⟨item, j, db, -, -, rfl⟩ := popBlock_inv h
    exact ⟨[], rfl⟩
  | stored b => exact ⟨[b], rfl⟩
  | fork => exact ⟨[], rfl⟩

lemma NodeSteps.stores (h : NodeSteps rules received n n') :
    ∃ bs, n'.blockStore = storeAll n.blockStore bs := by
  induction h with
  | refl => exact ⟨[], rfl⟩
  | tail _ hstep ih =>
    obtain ⟨bs, hbs⟩ := ih
    obtain ⟨cs, hcs⟩ := hstep.stores
    refine ⟨bs ++ cs, ?_⟩
    rw [hcs, hbs, storeAll, storeAll, storeAll, foldl_append]

lemma run_represented [BlockFormat H Tx] (genesis : ChainState H Tx W R)
    (ps : List (Push H Tx)) : ∃ bs : List (SignedBlock H Tx),
      (filesOf bs).Represents ((initial genesis).run rules ps).blockStore := by
  suffices h : ∀ n : Node H Tx W R Sched, ∃ bs,
      (n.run rules ps).blockStore = storeAll n.blockStore bs by
    obtain ⟨bs, hbs⟩ := h (initial genesis)
    exact ⟨bs, hbs ▸ represents_filesOf⟩
  induction ps with
  | nil => exact fun n => ⟨[], rfl⟩
  | cons p ps ih =>
    intro n
    have hstp : NodeSteps rules (fun _ => True) n (after (pushBlock rules p.now p.block n)) :=
      pushBlock_steps rules p.now trivial fun _ _ _ _ _ _ _ _ => trivial
    have hstep : (n.step rules p).2.blockStore =
        (after (pushBlock rules p.now p.block n)).blockStore := by
      unfold step
      cases pushBlock rules p.now p.block n <;> rfl
    obtain ⟨bs, hbs⟩ := hstp.stores
    obtain ⟨cs, hcs⟩ := ih (n.step rules p).2
    refine ⟨bs ++ cs, hcs.trans ?_⟩
    rw [hstep, hbs, storeAll, storeAll, storeAll, foldl_append]

def AgreesUpTo (store : Nat → Option (SignedBlock H Tx)) (id : BlockId H) : Prop :=
  ∀ i, i <:+ id → i ≠ [] → ∃ b, store i.length = some b ∧ b.id = i

variable {f : Nat → Option (SignedBlock H Tx)}

section

omit [DecidableEq H]

lemma AgreesUpTo.ancestor {i : BlockId H} (h : AgreesUpTo f id) (hi : i <:+ id) : AgreesUpTo f i :=
  fun j hj hne => h j (hj.trans hi) hne

lemma AgreesUpTo.store (h : AgreesUpTo f b.previous) :
    AgreesUpTo (update f b.blockNum (some b)) b.id := by
  intro i hi hne
  rcases suffix_cons_iff.1 hi with rfl | hi
  · exact ⟨b, update_self _ _ _, rfl⟩
  · obtain ⟨c, hc, hid⟩ := h i hi hne
    have hlower : i.length ≠ b.blockNum := Nat.ne_of_lt (Nat.lt_succ_of_le hi.length_le)
    exact ⟨c, by rw [update_of_ne hlower, hc], hid⟩

lemma AgreesUpTo.storeAll (h : AgreesUpTo f bottom)
    (hlnk : Links bottom bs top) : AgreesUpTo (storeAll f bs) top := by
  induction bs generalizing f bottom with
  | nil =>
    cases hlnk
    exact h
  | cons b bs ih =>
    obtain ⟨rfl, hlnk⟩ := hlnk
    exact ih h.store hlnk

lemma Links.length_eq (h : Links bottom bs top) : top.length = bottom.length + bs.length := by
  induction bs generalizing bottom with
  | nil =>
    cases h
    rfl
  | cons b bs ih =>
    obtain ⟨rfl, h⟩ := h
    rw [ih h, length_cons, SignedBlock.id, length_cons]
    omega

lemma Links.suffix (h : Links bottom bs top) : bottom <:+ top := by
  induction bs generalizing bottom with
  | nil =>
    cases h
    exact suffix_rfl
  | cons b bs ih =>
    obtain ⟨rfl, h⟩ := h
    exact (suffix_cons _ _).trans (ih h)

lemma storeAll_above {store : Nat → Option (SignedBlock H Tx)} (hlnk : Links bottom bs top)
    {k : Nat} (hk : top.length < k) : storeAll store bs k = store k := by
  induction bs generalizing store bottom with
  | nil => rfl
  | cons b bs ih =>
    have hleng := hlnk.length_eq
    obtain ⟨rfl, hlnk⟩ := hlnk
    have hne : k ≠ b.blockNum := by
      have hnum : b.blockNum = b.previous.length + 1 := rfl
      rw [length_cons] at hleng
      omega
    exact (ih hlnk).trans (update_of_ne hne _ _)

end

lemma links_of_applyBlocks {rules : Rules H Tx TxId W R} {s' : ChainState H Tx W R}
    (h : rules.applyBlocks s bs = .ok s') : Links s.headBlockId bs s'.headBlockId := by
  induction bs generalizing s with
  | nil =>
    cases h
    rfl
  | cons b bs ih =>
    simp only [Rules.applyBlocks, bind_eq_ok] at h
    obtain ⟨s1, h1, h⟩ := h
    have hap := Rules.applyBlock_ok h1
    exact ⟨hap.previous.symm, hap.headBlockId ▸ ih h⟩

section Branches

omit [DecidableEq W] in
lemma mem_of_mem_sessionForkDb {i : ForkItem H Tx Sched}
    (h : i ∈ (sessionForkDb rules s db b).index) : i ∈ db.index := by
  unfold sessionForkDb at h
  cases hsize : newMaxSize rules s b with
  | none => simpa [hsize] using h
  | some =>
    simp only [hsize, setMaxSize] at h
    cases hhead : db.head with
    | none => simpa [hhead] using h
    | some =>
      simp only [hhead] at h
      exact mem_of_mem_filter h

lemma pushFork_store_ok (h : pushFork rules items n = .ok () n') :
    n'.blockStore = storeAll n.blockStore (items.map data) := by
  induction items generalizing n with
  | nil =>
    cases h
    rfl
  | cons item rest ih =>
    cases happ : rules.applyBlock n.state item.data with
    | error =>
      rw [pushFork_cons_error happ] at h
      cases h
    | ok =>
      rw [pushFork_cons_ok happ] at h
      exact ih h

lemma pushFork_store_error {done invalid : List (ForkItem H Tx Sched)}
    (h : pushFork rules (done ++ invalid) n = .error (e, invalid) n') :
    n'.blockStore = storeAll n.blockStore (done.map data) := by
  induction done generalizing n with
  | nil =>
    cases invalid with
    | nil => cases h
    | cons item rest =>
      cases happ : rules.applyBlock n.state item.data with
      | error =>
        rw [nil_append, pushFork_cons_error happ] at h
        cases h
        rfl
      | ok s =>
        -- a later block would have failed, with fewer blocks left over
        rw [nil_append, pushFork_cons_ok happ] at h
        rcases pushFork_cases rules rest (afterItem rules item s n) with
          ⟨n1, hok, -⟩ | ⟨e1, done1, x, rest1, n1, hsplit, herr, -⟩
        · rw [hok] at h
          cases h
        · rw [herr] at h
          have hleft : x :: rest1 = item :: rest := (Prod.mk.inj (EStateM.Result.error.inj h).1).2
          have hlen := congrArg List.length hsplit
          rw [hleft, length_append, length_cons] at hlen
          omega
  | cons item done ih =>
    cases happ : rules.applyBlock n.state item.data with
    | error =>
      rw [cons_append, pushFork_cons_error happ] at h
      have hleft := congrArg List.length (Prod.mk.inj (EStateM.Result.error.inj h).1).2
      rw [length_cons, length_append] at hleft
      omega
    | ok =>
      rw [cons_append, pushFork_cons_ok happ] at h
      exact ih h

lemma restoreFork_store (h : restoreFork rules items n = .ok () n') :
    n'.blockStore = storeAll n.blockStore (items.map data) ∧
      ∀ i ∈ n'.forkDb.index, i ∈ n.forkDb.index := by
  induction items generalizing n with
  | nil =>
    cases h
    exact ⟨rfl, fun i hi => hi⟩
  | cons item rest ih =>
    cases happ : rules.applyBlock n.state item.data with
    | error =>
      simp only [restoreFork, applyInSession_error happ] at h
      cases h
    | ok =>
      simp only [restoreFork, applyInSession_ok happ] at h
      obtain ⟨hstore, hidx⟩ := ih h
      refine ⟨hstore, fun i hi => ?_⟩
      exact mem_of_mem_sessionForkDb (hidx i hi)

/-! ## The store follows the chain -/

/-- The store has the blocks of the chain, and nothing above them. -/
structure StoreAgrees (n : Node H Tx W R Sched) : Prop where
  chain : AgreesUpTo n.blockStore n.headBlockId
  above : ∀ k, n.headBlockId.length < k → n.blockStore k = none

omit [DecidableEq W] [DecidableEq H] in
lemma StoreAgrees.storeAll (h : StoreAgrees n) (hbot : bottom <:+ n.headBlockId)
    (hlnk : Links bottom bs n'.headBlockId) (hhig : n.headBlockId.length ≤ n'.headBlockId.length)
    (hstore : n'.blockStore = storeAll n.blockStore bs) : StoreAgrees n' := by
  refine ⟨?_, ?_⟩
  · rw [hstore]
    exact (h.chain.ancestor hbot).storeAll hlnk
  · intro k hk
    rw [hstore, storeAll_above hlnk hk]
    exact h.above k (lt_of_le_of_lt hhig hk)

lemma pushOnHead_storeAgrees (h : StoreAgrees n) (now : Nat) :
    StoreAgrees (after (pushOnHead rules now b newHead n)) := by
  cases happ : rules.applyBlock n.state b with
  | error =>
    simp only [pushOnHead, applyInSession_error happ]
    exact ⟨h.chain, h.above⟩
  | ok =>
    have hap := Rules.applyBlock_ok happ
    have hhead : (after (pushOnHead rules now b newHead n)).headBlockId = b.id := by
      simp only [pushOnHead, applyInSession_ok happ]
      split_ifs
      · exact hap.headBlockId
      · exact hap.headBlockId
    have hstore : (after (pushOnHead rules now b newHead n)).blockStore =
        Node.storeAll n.blockStore [b] := by
      simp only [pushOnHead, applyInSession_ok happ]
      split_ifs
      · rfl
      · rfl
    have hprev : b.previous = n.headBlockId := hap.previous.symm
    have hlnk : Links n.headBlockId [b]
        (after (pushOnHead rules now b newHead n)).headBlockId := ⟨hprev, hhead.symm⟩
    refine h.storeAll suffix_rfl hlnk ?_ hstore
    rw [hhead, SignedBlock.id, hprev]
    exact Nat.le_succ _

variable {p : Push H Tx}

section

variable (hn : n.Sound)
include hn

/-- A switch stores the new branch over the old one; when it fails, the old branch covers again
what was stored of the new one. -/
lemma switchForks_storeAgrees (h : StoreAgrees n) (hsafe : StepSafe rules n p)
    (htried : SwitchTried rules n p newHead db) :
    StoreAgrees (after (switchForks rules newHead { n with forkDb := db })) := by
  rcases switchForks_cases hn hsafe htried with ⟨heap, first, second, u, front, hcase,
    ⟨popped, n', happly, hpush, hswi⟩ |
    ⟨e, done, invalid, popped, popped2, n2, n', hback, hunw, hswi⟩⟩
  · have hu : u.headBlockId <:+ n.headBlockId := by
      rw [hcase.forked.forkPoint.2]
      exact drop_suffix _ _
    have hid : n'.headBlockId = newHead.id :=
      hcase.forked.headBlockId_done (append_nil _).symm happly
    have hstore : n'.blockStore = storeAll n.blockStore (first.reverse.map data) := by
      have hstored := pushFork_store_ok hpush
      exact hstored
    rw [hswi]
    refine h.storeAll hu (links_of_applyBlocks happly) ?_ hstore
    change n.headBlockId.length ≤ n'.headBlockId.length
    rw [hid]
    exact (Nat.le_succ _).trans hcase.num.ge
  · have hu : u.headBlockId <:+ n.headBlockId := by
      rw [hcase.forked.forkPoint.2]
      exact drop_suffix _ _
    have hdone := links_of_applyBlocks hunw.applied
    have hsec := links_of_applyBlocks hback.replays
    have hsto : n2.blockStore = storeAll n.blockStore (done.map data) := by
      have hpus := hunw.pushed
      rw [hunw.split] at hpus
      have hstored := pushFork_store_error hpus
      exact hstored
    have hsto' : n'.blockStore = storeAll n2.blockStore (second.reverse.map data) :=
      (restoreFork_store hunw.restored).1
    have hhead : n'.headBlockId = n.headBlockId := congrArg ChainState.headBlockId hunw.state
    -- what was stored of the new branch is not higher than the chain
    have hlow : n2.headBlockId.length ≤ n.headBlockId.length := by
      have hid : n2.headBlockId = newHead.id.drop invalid.length :=
        hcase.forked.headBlockId_done hunw.split hunw.applied
      have hnum : newHead.id.length = n.headBlockId.length + 1 := hcase.num
      have hpos := hunw.invalid_pos
      rw [hid, length_drop]
      omega
    have hbranch : AgreesUpTo n2.blockStore u.headBlockId := by
      rw [hsto]
      refine ((h.chain.ancestor hu).storeAll hdone).ancestor ?_
      exact hdone.suffix
    rw [hswi]
    refine ⟨?_, ?_⟩
    · change AgreesUpTo n'.blockStore n'.headBlockId
      rw [hsto', hhead]
      exact hbranch.storeAll hsec
    · intro k hk
      have hk' : n.headBlockId.length < k := hhead ▸ hk
      change n'.blockStore k = none
      rw [hsto', storeAll_above hsec hk', hsto,
        storeAll_above hdone (lt_of_le_of_lt hlow hk')]
      exact h.above k hk'

lemma step_storeAgrees (h : StoreAgrees n) (hsafe : StepSafe rules n p) :
    StoreAgrees (n.step rules p).2 := by
  have hpush : StoreAgrees (after (pushBlock rules p.now p.block n)) := by
    rcases pushBlock_cases rules n p with
      ⟨e, hres⟩ | ⟨newHead, db, -, -, ⟨-, -, hres⟩ | ⟨htried, hres⟩ | ⟨-, hres⟩⟩
    · rwa [hres]
    · rw [hres]
      exact ⟨h.chain, h.above⟩
    · rw [hres]
      exact switchForks_storeAgrees hn h hsafe htried
    · rw [hres]
      have hdb : StoreAgrees { n with forkDb := db } := ⟨h.chain, h.above⟩
      exact pushOnHead_storeAgrees hdb p.now
  unfold step
  cases hres : pushBlock rules p.now p.block n <;> rw [hres] at hpush <;>
    exact ⟨hpush.chain, hpush.above⟩

lemma run_storeAgrees (h : StoreAgrees n) {ps : List (Push H Tx)}
    (hsafe : RunSafe rules n ps) : StoreAgrees (n.run rules ps) := by
  induction ps generalizing n with
  | nil => exact h
  | cons p ps ih => exact ih (step_sound hn hsafe.1).1 (step_storeAgrees hn h hsafe.1) hsafe.2

/-! ## A call that throws makes no block known -/

def NoneAdded (db db' : ForkDatabase H Tx Sched) : Prop :=
  ∀ i ∈ db'.index, ∃ j ∈ db.index, j.id = i.id

lemma switchForks_noneAdded (hsafe : StepSafe rules n p) (htried : SwitchTried rules n p newHead db)
    (hthr : switchForks rules newHead { n with forkDb := db } = .error e n') :
    NoneAdded n.forkDb n'.forkDb := by
  rcases switchForks_cases hn hsafe htried with ⟨heap, first, second, u, front, hcase,
    ⟨popped, n1, happly, hpush, hswi⟩ |
    ⟨e1, done, invalid, popped, popped2, n2, n1, hback, hunw, hswi⟩⟩
  · rw [hthr] at hswi
    cases hswi
  · rw [hthr] at hswi
    cases hswi
    intro i hi
    have hdro := (restoreFork_store hunw.restored).2 i hi
    obtain ⟨head, hrem⟩ := removeAll_eq n2.forkDb (first ++ second) invalid
    rw [dropInvalid, hrem] at hdro
    obtain ⟨hmem, hne⟩ := mem_filter.1 hdro
    -- pushing the new branch added nothing to the fork database
    have hkps := pushFork_keeps_branch rules first second u popped hcase.moved.head hcase.num.le
    rw [hunw.pushed] at hkps
    obtain ⟨j, hj, hji⟩ := hkps.old i hmem
    rcases hcase.moved.old j hj with rfl | hj
    · have htop := Forked.Unwound.newHead_mem hcase.forked hunw
      rw [hji] at htop
      exact absurd htop (of_decide_eq_true hne)
    · exact ⟨j, hj, hji⟩

lemma pushOnHead_noneAdded (hpush : n.forkDb.pushBlock b = .ok (newHead, db))
    (hprev : newHead.previousId = n.headBlockId) {now : Nat}
    (hthr : pushOnHead rules now b newHead { n with forkDb := db } = .error e n') :
    NoneAdded n.forkDb n'.forkDb := by
  obtain ⟨hitem, hmvd⟩ := headMoved_of_child hn.atHead hpush hprev
  cases happ : rules.applyBlock (Node.state { n with forkDb := db }) b with
  | ok =>
    simp only [pushOnHead, applyInSession_ok happ] at hthr
    cases hthr
  | error =>
    simp only [pushOnHead, applyInSession_error happ] at hthr
    cases hthr
    intro i hi
    rcases remove_eq (sessionForkDb rules (Node.state { n with forkDb := db }) db b)
      [newHead] b.id with ⟨head, hrem⟩
    rw [hrem] at hi
    obtain ⟨hmem, hne⟩ := mem_filter.1 hi
    have hidx := mem_of_mem_sessionForkDb hmem
    rcases hmvd.old i hidx with rfl | hold
    · rw [ForkItem.id, hitem.data] at hne
      exact absurd rfl (of_decide_eq_true hne)
    · exact ⟨i, hold, rfl⟩

lemma step_noneAdded (hsafe : StepSafe rules n p)
    (hthr : (n.step rules p).1 = some e) : NoneAdded n.forkDb (n.step rules p).2.forkDb := by
  unfold step at hthr ⊢
  cases hres : pushBlock rules p.now p.block n with
  | ok =>
    rw [hres] at hthr
    cases hthr
  | error e1 n' =>
    change NoneAdded n.forkDb n'.forkDb
    rcases pushBlock_cases rules n p with
      ⟨e2, h⟩ | ⟨newHead, db, -, hpush, ⟨-, -, h⟩ | ⟨htried, h⟩ | ⟨hprev, h⟩⟩
    · rw [h] at hres
      cases hres
      exact fun i hi => ⟨i, hi, rfl⟩
    · rw [h] at hres
      cases hres
    · rw [h] at hres
      exact switchForks_noneAdded hn hsafe htried hres
    · rw [h] at hres
      exact pushOnHead_noneAdded hn hpush hprev hres

end

omit [DecidableEq W] in
lemma isKnownBlock_iff : n.isKnownBlock id = true ↔
      (∃ i ∈ n.forkDb.index, i.id = id) ∨ ∃ b, n.blockStore id.length = some b ∧ b.id = id := by
  have hfork : (n.forkDb.fetchBlock id).isSome = true ↔ ∃ i ∈ n.forkDb.index, i.id = id := by
    simp [fetchBlock]
  unfold isKnownBlock
  rw [Bool.or_eq_true, hfork]
  refine or_congr Iff.rfl ?_
  change (match n.blockStore id.length with
    | none => false
    | some b => decide (b.id = id)) = true ↔ _
  cases n.blockStore id.length <;> simp

omit [DecidableEq H] [DecidableEq W] in
lemma StoreAgrees.stored_iff (h : StoreAgrees n) :
    (∃ b, n.blockStore id.length = some b ∧ b.id = id) ↔ id ≠ [] ∧ id <:+ n.headBlockId := by
  constructor
  · rintro ⟨b, hb, rfl⟩
    refine ⟨cons_ne_nil _ _, ?_⟩
    have hle : b.id.length ≤ n.headBlockId.length := by
      refine le_of_not_gt fun hgt => ?_
      rw [h.above _ hgt] at hb
      cases hb
    -- the block of the chain with this number is the stored one
    have hsuf : n.headBlockId.drop (n.headBlockId.length - b.id.length) <:+ n.headBlockId :=
      drop_suffix _ _
    have hleng : (n.headBlockId.drop (n.headBlockId.length - b.id.length)).length =
        b.id.length := by
      rw [length_drop]
      omega
    have hne : n.headBlockId.drop (n.headBlockId.length - b.id.length) ≠ [] := by
      intro hnil
      rw [hnil] at hleng
      cases hleng
    obtain ⟨c, hc, hid⟩ := h.chain _ hsuf hne
    rw [hleng, hb] at hc
    cases hc
    rwa [hid]
  · rintro ⟨hne, hsuf⟩
    exact h.chain id hsuf hne

end Branches

/-! ## Runs -/

/-- `get_block_id_for_num` gives the ids of the main chain, and nothing is stored above it. -/
structure StoreMatchesChain (n : Node H Tx W R Sched) : Prop where
  ids : ∀ num, 1 ≤ num → num ≤ n.headBlockNum →
    n.getBlockIdForNum num = .ok (n.headBlockId.drop (n.headBlockNum - num))
  above : ∀ num, n.headBlockNum < num → n.blockStore num = none

/-- When the call throws, `is_known_block` reports no block that it did not report before. -/
def RejectsUnknown (rules : NodeRules H Tx TxId W R Sched) (n : Node H Tx W R Sched)
    (p : Push H Tx) : Prop :=
  ∀ e, (n.step rules p).1 = some e → ∀ id, (n.step rules p).2.isKnownBlock id = true →
    n.isKnownBlock id = true

omit [DecidableEq H] [DecidableEq W] in
lemma StoreAgrees.matches (h : StoreAgrees n) (hnum : n.headBlockNum = n.headBlockId.length) :
    StoreMatchesChain n := by
  refine ⟨?_, ?_⟩
  · intro num hpos hle
    rw [hnum] at hle ⊢
    have hleng : (n.headBlockId.drop (n.headBlockId.length - num)).length = num := by
      rw [length_drop]
      omega
    have hne : n.headBlockId.drop (n.headBlockId.length - num) ≠ [] := by
      intro hnil
      rw [hnil, length_nil] at hleng
      omega
    obtain ⟨b, hb, hid⟩ := h.chain _ (drop_suffix _ _) hne
    rw [hleng] at hb
    simp only [getBlockIdForNum, hb, hid]
  · intro num hlt
    rw [hnum] at hlt
    exact h.above num hlt

lemma step_rejectsUnknown (hn : n.Sound) (h : StoreAgrees n) {p : Push H Tx}
    (hsafe : StepSafe rules n p) : RejectsUnknown rules n p := by
  intro e hthr id hknown
  have hagrees := step_storeAgrees hn h hsafe
  have hhead : (n.step rules p).2.headBlockId = n.headBlockId :=
    congrArg ChainState.headBlockId ((step_sound hn hsafe).2 e hthr).state
  rw [isKnownBlock_iff] at hknown ⊢
  rcases hknown with ⟨i, hi, rfl⟩ | hstored
  · obtain ⟨j, hj, hji⟩ := step_noneAdded hn hsafe hthr i hi
    exact Or.inl ⟨j, hj, hji⟩
  · rw [hagrees.stored_iff, hhead, ← h.stored_iff] at hstored
    exact Or.inr hstored

omit [DecidableEq H] [DecidableEq W] in
lemma initial_storeAgrees {genesis : ChainState H Tx W R} (h : genesis.IsGenesis) :
    StoreAgrees (initial genesis : Node H Tx W R Sched) := by
  refine ⟨?_, fun _ _ => rfl⟩
  have hnil : (initial genesis : Node H Tx W R Sched).headBlockId = [] := h.headBlockId
  rw [hnil]
  intro i hi hne
  exact absurd (suffix_nil.1 hi) hne

/-- In a run whose calls are safe, the block store agrees with the chain, and a block that is
rejected does not become known. -/
theorem block_store_agrees [BlockFormat H Tx] (rules : NodeRules H Tx TxId W R Sched)
    (genesis : ChainState H Tx W R) (hgenesis : genesis.IsGenesis) (ps : List (Push H Tx))
    (hsafe : RunSafe rules (initial genesis) ps) : (∃ bs : List (SignedBlock H Tx),
        (filesOf bs).Represents ((initial genesis).run rules ps).blockStore) ∧
      StoreMatchesChain ((initial genesis).run rules ps) ∧
      ∀ p, StepSafe rules ((initial genesis).run rules ps) p →
        RejectsUnknown rules ((initial genesis).run rules ps) p := by
  have hsound : ((initial genesis).run rules ps).Sound := by
    have hrun : RunSafe rules (initial genesis) (ps ++ []) := by rwa [append_nil]
    exact (run_sound (initial_sound hgenesis) hrun).1
  have hagrees := run_storeAgrees (initial_sound hgenesis) (initial_storeAgrees hgenesis) hsafe
  exact ⟨run_represented genesis ps, hagrees.matches hsound.valid.stacked.num,
    fun p hp => step_rejectsUnknown hsound hagrees hp⟩

instance : BlockFormat PlainHeader (Nat × Nat) := .symbols PlainHeader (Nat × Nat)

namespace SideBranch

/-- The call that throws leaves the store at the three blocks of the chain. -/
theorem block_store_agrees_failed_switch :
    StoreMatchesChain (plainNode.run plainNodeRules ([a1, a2, b2].map plainPush)) ∧
      RejectsUnknown plainNodeRules (plainNode.run plainNodeRules ([a1, a2, b2].map plainPush))
        (plainPush c3) := by
  have hsafe := runSafe
  rcases block_store_agrees plainNodeRules (plainGenesis [0, 1, 2]) (plainGenesis_isGenesis _)
    ([a1, a2, b2].map plainPush) ⟨hsafe.1, hsafe.2.1, hsafe.2.2.1, trivial⟩ with
    ⟨-, hmatches, hreject⟩
  exact ⟨hmatches, hreject (plainPush c3) hsafe.2.2.2.1⟩

end SideBranch

namespace StrandedBranch

def a1 := plainBlock ⟨1, 0, true⟩ []

def b2 := plainBlock ⟨2, 0, true⟩ a1.id
def b3 := plainBlock ⟨3, 0, true⟩ b2.id
def b4 := plainBlock ⟨4, 0, true⟩ b3.id
def b5 := plainBlock ⟨5, 0, true⟩ b4.id
def b6 := plainBlock ⟨6, 0, true⟩ b5.id

/-- A side branch of six blocks whose last block is invalid. -/
def c2 := plainBlock ⟨12, 1, true⟩ a1.id
def c3 := plainBlock ⟨13, 2, true⟩ c2.id
def c4 := plainBlock ⟨14, 0, true⟩ c3.id
def c5 := plainBlock ⟨15, 1, true⟩ c4.id
def c6 := plainBlock ⟨16, 2, true⟩ c5.id
def c7 := plainBlock ⟨17, 0, false⟩ c6.id

def pushes : List (Push PlainHeader (Nat × Nat)) :=
  [a1, b2, b3, b4, b5, b6, c2, c3, c4, c5, c6, c7].map plainPush

/-- Applying `c2` cuts the fork database to the blocks from number 4 on.  When `c7` fails, the
blocks `c6`, `c5` and `c4` are popped, and `pop_block` throws at `c3`.  The chain ends there, but
the three blocks above it are still in the store. -/
theorem block_store_stranded : ¬ StoreMatchesChain (plainNode.run plainNodeRules pushes) ∧
      (plainNode.run plainNodeRules pushes).headBlockId = c3.id ∧
      (plainNode.run plainNodeRules pushes).getBlockIdForNum 6 = .ok c6.id := by
  have hhead : (plainNode.run plainNodeRules pushes).headBlockNum = 3 := by decide +kernel
  have hstored : (plainNode.run plainNodeRules pushes).blockStore 6 ≠ none := by decide +kernel
  refine ⟨fun h => hstored (h.above 6 (by rw [hhead]; decide)), by decide +kernel, by decide +kernel⟩

end StrandedBranch

end Node
end Graphene.Chain
