import Graphene.Chain.Switching
import Graphene.Chain.ForkWindow

/-!
# Completing and unwinding a fork switch

The phases of a switch, computed: popping down to the fork point, pushing the new branch, and, when a
block of it fails, popping what was pushed and restoring the old branch.  `WindowReaches` says that the
windows of the two stacks do not close over the first block of the new branch.
-/

namespace Graphene.Chain

open Lib List ForkDatabase Nat
open ForkItem (addr data num)

variable {H Tx TxId W R Sched : Type} [DecidableEq H] [DecidableEq TxId] [DecidableEq W]
  {s : ChainState H Tx W R} {b : SignedBlock H Tx} {bs : List (SignedBlock H Tx)}
  {s' : ChainState H Tx W R}

namespace Rules

variable {rules : Rules H Tx TxId W R}

lemma applyBlocks_append {cs : List (SignedBlock H Tx)} :
    rules.applyBlocks s (bs ++ cs) = rules.applyBlocks s bs >>= (rules.applyBlocks · cs) := by
  induction bs generalizing s with
  | nil => rfl
  | cons b bs ih =>
    simp only [cons_append, applyBlocks]
    cases rules.applyBlock s b with
    | error => rfl
    | ok => exact ih

lemma headBlockId_applyBlocks (h : rules.applyBlocks s bs = .ok s') :
    s'.headBlockId = (bs.map SignedBlock.header).reverse ++ s.headBlockId := by
  induction bs generalizing s with
  | nil =>
    cases h
    rfl
  | cons b bs ih =>
    simp only [applyBlocks, bind_eq_ok] at h
    obtain ⟨s1, h1, h⟩ := h
    have hb := applyBlock_ok h1
    rw [ih h, hb.headBlockId, SignedBlock.id, ← hb.previous]
    simp

lemma lib_le_applyBlock (h : rules.applyBlock s b = .ok s') :
    s.lastIrreversibleBlockNum ≤ s'.lastIrreversibleBlockNum := by
  rw [(applyBlock_ok h).irreversible]
  exact le_updateLastIrreversibleBlock (rules.confirmedBy s b)

end Rules

omit [DecidableEq H] [DecidableEq W] in
lemma Stacked.length_le {saved : List (ChainState H Tx W R)} (h : Stacked s saved) :
    saved.length ≤ s.headBlockId.length := by
  induction saved generalizing s with
  | nil => exact zero_le _
  | cons u saved ih =>
    obtain ⟨x, hx⟩ := h.2.1
    rw [hx]
    exact succ_le_succ (ih h.2.2.2)

variable {n : Node H Tx W R Sched} {u : ChainState H Tx W R} {e : ChainError}
  {rest : List (ForkItem H Tx Sched)} {low top : Nat} {db : ForkDatabase H Tx Sched}
  {done invalid : List (ForkItem H Tx Sched)} {head i : ForkItem H Tx Sched} {written : List Nat}
  {items : List (ForkItem H Tx Sched)} {n' : Node H Tx W R Sched} {front : ForkItem H Tx Sched}
  (locals : List (ForkItem H Tx Sched)) (item : ForkItem H Tx Sched)

namespace Node

def atForkPoint (n : Node H Tx W R Sched) (u : ChainState H Tx W R) (m : Nat) (popped : List Tx) :
    Node H Tx W R Sched :=
  { n with
    journal := ⟨u, n.journal.saved.drop m, n.journal.bound⟩
    poppedTx := popped }

section

omit [DecidableEq W]

/-- One round of the loop that pops blocks, for a block that is in the fork database but is not its
head. -/
lemma popBlock_ok {rest : List (ChainState H Tx W R)} (hhead : n.forkDb.head = some head)
    (hoth : head.id ≠ n.headBlockId) (hi : i ∈ n.forkDb.index) (hid : i.id = n.headBlockId)
    (hsaved : n.journal.saved = u :: rest) : ∃ popped, popBlock locals n =
      .ok () { n with journal := ⟨u, rest, n.journal.bound⟩, poppedTx := popped } := by
  obtain ⟨j, hj⟩ := fetchBlock_isSome hi
  rw [hid] at hj
  exact ⟨_, by simp [popBlock, hhead, hoth, hj, Journal.restore, hsaved]; rfl⟩

lemma popUntil_ok {m fuel : Nat} (hs : Stacked n.state n.journal.saved)
    (hu : (n.state :: n.journal.saved)[m]? = some u) (hfuel : m ≤ fuel)
    (hhead : n.forkDb.head = some head) (hoth : ∀ k < m, head.id ≠ n.headBlockId.drop k)
    (hknown : ∀ k < m, ∃ i ∈ n.forkDb.index, i.id = n.headBlockId.drop k) :
    ∃ popped, popUntil locals (n.headBlockId.drop m) fuel n = .ok () (n.atForkPoint u m popped) := by
  induction m generalizing n fuel with
  | zero =>
    simp only [getElem?_cons_zero, Option.some.injEq] at hu
    subst hu
    refine ⟨n.poppedTx, ?_⟩
    cases fuel <;> simp [popUntil, state, atForkPoint]
  | succ m ih =>
    cases hsaved : n.journal.saved with
    | nil => simp [hsaved] at hu
    | cons v rest =>
      rw [hsaved] at hu hs
      obtain ⟨-, ⟨x, hx⟩, -, hrest⟩ := hs
      have hx' : n.headBlockId = x :: v.headBlockId := hx
      -- the loop goes on, since the target is a shorter chain
      have hne : n.headBlockId ≠ n.headBlockId.drop (m + 1) := by
        intro heq
        have hlen := congrArg length heq
        rw [length_drop, hx', length_cons] at hlen
        omega
      obtain ⟨i, hi, hid⟩ := hknown 0 (succ_pos m)
      obtain ⟨tx, hpop⟩ := popBlock_ok locals hhead (hoth 0 (succ_pos m)) hi hid hsaved
      obtain ⟨fuel, rfl⟩ : ∃ f, fuel = f + 1 := ⟨fuel - 1, by omega⟩
      have hdrop : ∀ k, n.headBlockId.drop (k + 1) = v.headBlockId.drop k := by
        intro k
        rw [hx']
        rfl
      have hrec := ih (n := { n with journal := ⟨v, rest, n.journal.bound⟩, poppedTx := tx })
        hrest hu (le_of_succ_le_succ hfuel) hhead
        (fun k hk => by
          have := hoth (k + 1) (by omega)
          rwa [hdrop] at this)
        (fun k hk => by
          have := hknown (k + 1) (by omega)
          rwa [hdrop] at this)
      obtain ⟨popped, hrec⟩ := hrec
      refine ⟨popped, ?_⟩
      simp only [popUntil, hne, if_false, hpop]
      rw [hdrop]
      refine hrec.trans ?_
      simp [atForkPoint, hsaved]

end

/-! ## Pushing a branch -/

variable {rules : NodeRules H Tx TxId W R Sched} {heap : Heap H Tx}

lemma applyInSession_ok (h : rules.applyBlock n.state b = .ok s) :
    applyInSession rules b n = .ok () { n with
      journal := (sessionJournal rules n.journal b).write s
      forkDb := sessionForkDb rules n.state n.forkDb b } := by
  simp only [applyInSession, h]

lemma applyInSession_error (h : rules.applyBlock n.state b = .error e) :
    applyInSession rules b n = .error e { n with
      journal := ⟨n.state, n.journal.saved.take n.journal.bound,
        (sessionJournal rules n.journal b).bound⟩
      forkDb := sessionForkDb rules n.state n.forkDb b } := by
  simp [applyInSession, h]

def afterItem (rules : NodeRules H Tx TxId W R Sched) (item : ForkItem H Tx Sched)
    (s : ChainState H Tx W R) (n : Node H Tx W R Sched) : Node H Tx W R Sched :=
  (updateWitnesses rules { n with
    journal := (sessionJournal rules n.journal item.data).write s
    forkDb := sessionForkDb rules n.state n.forkDb item.data } item.addr).store item.data

omit [DecidableEq W] in
@[simp] lemma afterItem_saved :
    (afterItem rules item s n).journal.saved = n.state :: n.journal.saved.take n.journal.bound := by
  change (sessionJournal rules n.journal item.data).saved = _
  simp [state]

variable {item : ForkItem H Tx Sched}

lemma pushFork_cons_ok (h : rules.applyBlock n.state item.data = .ok s) :
    pushFork rules (item :: rest) n = pushFork rules rest (afterItem rules item s n) := by
  simp only [pushFork, applyInSession_ok h, afterItem]

lemma pushFork_cons_error (h : rules.applyBlock n.state item.data = .error e) :
    pushFork rules (item :: rest) n = .error (e, item :: rest) { n with
      journal := ⟨n.state, n.journal.saved.take n.journal.bound,
        (sessionJournal rules n.journal item.data).bound⟩
      forkDb := sessionForkDb rules n.state n.forkDb item.data } := by
  simp only [pushFork, applyInSession_error h]

/-- Either the whole branch applies, or it does up to a first block that fails. -/
lemma pushFork_cases (rules : NodeRules H Tx TxId W R Sched) (items : List (ForkItem H Tx Sched))
    (n : Node H Tx W R Sched) : (∃ n', pushFork rules items n = .ok () n' ∧
      rules.applyBlocks n.state (items.map data) = .ok n'.state) ∨
    ∃ e done x rest n', items = done ++ x :: rest ∧
      pushFork rules items n = .error (e, x :: rest) n' ∧
      rules.applyBlocks n.state (done.map data) = .ok n'.state ∧
      rules.applyBlock n'.state x.data = .error e := by
  induction items generalizing n with
  | nil => exact Or.inl ⟨n, rfl, rfl⟩
  | cons item rest ih =>
    cases happ : rules.applyBlock n.state item.data with
    | error e =>
      refine Or.inr ⟨e, [], item, rest, _, rfl, pushFork_cons_error happ, rfl, ?_⟩
      exact happ
    | ok s =>
      rw [pushFork_cons_ok happ]
      have hcons : ∀ bs, rules.applyBlocks n.state (item.data :: bs) =
          rules.applyBlocks s bs := by
        intro bs
        simp only [Rules.applyBlocks, happ]
        rfl
      rcases ih (afterItem rules item s n) with
        ⟨n', hpush, hblo⟩ | ⟨e, done, x, rest', n', rfl, hpush, hblo, hfail⟩
      · exact Or.inl ⟨n', hpush, by rw [map_cons, hcons]; exact hblo⟩
      · refine Or.inr ⟨e, item :: done, x, rest', n', rfl, hpush, ?_, hfail⟩
        rwa [map_cons, hcons]

/-- While the blocks are applied, as far as they go, the window of a fork database whose head has
the number `top` reaches down to the number `low`. -/
def WindowReaches (rules : NodeRules H Tx TxId W R Sched) (top low : Nat) :
    ChainState H Tx W R → List (SignedBlock H Tx) → Prop
  | _, [] => True
  | s, b :: bs => (∀ size, newMaxSize rules s b = some size → top ≤ low + size) ∧
      ∀ s', rules.applyBlock s b = .ok s' → WindowReaches rules top low s' bs

omit [DecidableEq W] in
lemma keeps_sessionForkDb (written : List Nat) (htop : db.head.map num = some top)
    (hsize : ∀ size, newMaxSize rules s b = some size → top ≤ low + size) :
    db.Keeps low written (sessionForkDb rules s db b) := by
  unfold sessionForkDb
  cases hs : newMaxSize rules s b with
  | none => exact .refl _ _ _
  | some size => exact keeps_setMaxSize htop (hsize size hs)

lemma pushFork_keeps (htop : n.forkDb.head.map num = some top)
    (hw : WindowReaches rules top low n.state (items.map data))
    (hwri : ∀ i ∈ items, i.addr ∈ written) :
    n.forkDb.Keeps low written (after (pushFork rules items n)).forkDb := by
  induction items generalizing n with
  | nil => exact .refl _ _ _
  | cons item rest ih =>
    have hses := keeps_sessionForkDb written htop hw.1
    cases happ : rules.applyBlock n.state item.data with
    | error =>
      rwa [pushFork_cons_error happ]
    | ok s =>
      rw [pushFork_cons_ok happ]
      have hitem : n.forkDb.Keeps low written (afterItem rules item s n).forkDb :=
        hses.trans (keeps_setScheduled _ _ (hwri item (by simp)))
      refine hitem.trans (ih (hitem.head.trans htop) (hw.2 s happ) ?_)
      exact fun i hi => hwri i (by simp [hi])

lemma getElem?_cons_take {α : Type} {x y : α} {l : List α} {i bound : Nat}
    (h : (x :: l)[i]? = some y) (hi : i ≤ bound) : (x :: l.take bound)[i]? = some y := by
  cases i with
  | zero => simpa using h
  | succ =>
    rw [getElem?_cons_succ] at h ⊢
    rw [getElem?_take_of_lt (by omega), h]

/-- The state at the fork point stays on the undo stack while the new branch is pushed: the window
that reaches the branch's first block also bounds the stack. -/
lemma pushFork_saved {i : Nat} {x : ForkItem H Tx Sched}
    (hpush : pushFork rules (done ++ x :: rest) n = .error (e, x :: rest) n')
    (happly : rules.applyBlocks n.state (done.map data) = .ok s)
    (hfail : rules.applyBlock s x.data = .error e)
    (hw : WindowReaches rules top low n.state ((done ++ x :: rest).map data))
    (hlen : i + (done ++ x :: rest).length + low ≤ top + 1)
    (hu : (n.state :: n.journal.saved)[i]? = some u) (hbnd : i ≤ n.journal.bound) :
    (n'.state :: n'.journal.saved)[i + done.length]? = some u := by
  induction done generalizing n i with
  | nil =>
    cases happly
    rw [nil_append, pushFork_cons_error hfail] at hpush
    cases hpush
    exact getElem?_cons_take hu hbnd
  | cons item done ih =>
    simp only [map_cons, Rules.applyBlocks, bind_eq_ok] at happly
    obtain ⟨s1, happ, happly⟩ := happly
    rw [cons_append, pushFork_cons_ok happ] at hpush
    have hsize : item.data.blockNum - n.state.lastIrreversibleBlockNum + 1 ≤
        (sessionJournal rules n.journal item.data).bound :=
      le_sessionJournal_bound (newMaxSize_of_ok happ)
    have htop := hw.1 _ (newMaxSize_of_ok happ)
    simp only [cons_append, length_cons, length_append] at hlen
    have hroom : i + 1 ≤ (afterItem rules item s1 n).journal.bound := by
      exact le_trans (by omega) hsize
    have hrec := ih (i := i + 1) hpush happly (hw.2 s1 happ)
      (by simp only [length_cons, length_append]; omega)
      (by simpa using getElem?_cons_take hu hbnd) hroom
    rwa [length_cons, show i + (done.length + 1) = i + 1 + done.length by omega]

lemma restoreFork_ok (h : rules.applyBlocks n.state (items.map data) = .ok s) :
    ∃ n', restoreFork rules items n = .ok () n' ∧ n'.state = s := by
  induction items generalizing n with
  | nil =>
    cases h
    exact ⟨n, rfl, rfl⟩
  | cons item rest ih =>
    simp only [map_cons, Rules.applyBlocks, bind_eq_ok] at h
    obtain ⟨s1, happ, h⟩ := h
    simp only [restoreFork, applyInSession_ok happ]
    exact ih h

/-! ## The switch -/

/-- The node and the branches of a switch, after the new block is in the fork database: its head
`newHead` is higher than the chain, and `u` is the saved state at the fork point. -/
structure Forked (n : Node H Tx W R Sched) (heap : Heap H Tx) (newHead : ForkItem H Tx Sched)
    (first second : List (ForkItem H Tx Sched)) (u : ChainState H Tx W R) : Prop where
  stacked : Stacked n.state n.journal.saved
  lives : n.forkDb.LivesIn heap
  head : n.forkDb.head = some newHead
  higher : n.headBlockNum < newHead.num
  branches : n.forkDb.Branches newHead.id n.headBlockId first second
  saved : (n.state :: n.journal.saved)[second.length]? = some u

/-- A failed switch can be unwound from `u` to the state `s`: when some of the new branch has been
applied, the window reaches its first block, and the old branch, as the fork database has it, leads
back to `s`. -/
structure Unwindable (rules : NodeRules H Tx TxId W R Sched) (s u : ChainState H Tx W R) (top : Nat)
    (first second : List (ForkItem H Tx Sched)) : Prop where
  window : ∀ i s', first.getLast? = some i → rules.applyBlock u i.data = .ok s' →
    WindowReaches rules top (u.headBlockNumber + 1) u (first.reverse.map ForkItem.data)
  replays : rules.applyBlocks u (second.reverse.map ForkItem.data) = .ok s

namespace Forked

variable {newHead : ForkItem H Tx Sched} {first second : List (ForkItem H Tx Sched)}

section

variable (h : Forked n heap newHead first second u)
include h

section

omit [DecidableEq H] [DecidableEq W]

lemma headBlockNum_eq : n.headBlockNum = n.headBlockId.length :=
  h.stacked.num

lemma fuel : second.length ≤ n.journal.saved.length := by
  have hlt := (List.getElem?_eq_some_iff.1 h.saved).1
  simpa using le_of_lt_succ hlt

lemma newHead_ne (k : Nat) : newHead.id ≠ n.headBlockId.drop k := by
  intro heq
  have hlen := congrArg length heq
  have hnum : newHead.id.length = newHead.num := rfl
  have hhig := h.higher
  rw [h.headBlockNum_eq] at hhig
  rw [length_drop, hnum] at hlen
  omega

end

omit [DecidableEq W] [DecidableEq H] in
lemma mem_index (hi : i ∈ first ++ second) (hne : i.id ≠ newHead.id) : i ∈ n.forkDb.index := by
  rcases mem_owned.1 (h.branches.owned i hi) with hmem | hhead
  · exact hmem
  · rw [h.head] at hhead
    cases hhead
    exact absurd rfl hne

omit [DecidableEq W] in
lemma popUntil_eq :
    ∃ popped, popUntil (first ++ second) (n.headBlockId.drop second.length) n.journal.saved.length n =
      .ok () (n.atForkPoint u second.length popped) := by
  refine popUntil_ok (first ++ second) h.stacked h.saved h.fuel h.head
    (fun k _ => h.newHead_ne k) ?_
  intro k hk
  have hget : second[k]? = some second[k] := getElem?_eq_getElem hk
  have hid : second[k].id = n.headBlockId.drop k := h.branches.descends_second.id_getElem hget
  refine ⟨second[k], h.mem_index (mem_append_right _ (getElem_mem hk)) ?_, hid⟩
  rw [hid]
  exact (h.newHead_ne k).symm

/-- When the new branch applies, the node ends at its head. -/
lemma switchTo_ok (front : ForkItem H Tx Sched)
    (happly : rules.applyBlocks u (first.reverse.map data) = .ok s) :
    ∃ popped n', pushFork rules first.reverse (n.atForkPoint u second.length popped) = .ok () n' ∧
      switchTo rules first second front (n.headBlockId.drop second.length) n = .ok true n' ∧
      n'.state = s := by
  obtain ⟨popped, hpop⟩ := h.popUntil_eq
  rcases pushFork_cases rules first.reverse (n.atForkPoint u second.length popped) with
    ⟨n', hpush, hblo⟩ | ⟨e, done, x, rest, n', hsplit, hpush, hblo, hfail⟩
  · refine ⟨popped, n', hpush, by simp only [switchTo, hpop, hpush], ?_⟩
    have hsame := hblo.symm.trans happly
    cases hsame
    rfl
  · -- a block that fails contradicts the assumption
    rw [hsplit, map_append, Rules.applyBlocks_append] at happly
    have hdone : rules.applyBlocks u (done.map data) = .ok n'.state := hblo
    simp only [hdone, map_cons, Rules.applyBlocks, bind_eq_ok] at happly
    obtain ⟨_, hok, s1, hx, -⟩ := happly
    cases hok
    rw [hfail] at hx
    cases hx

/-! ### Unwinding -/

section

omit [DecidableEq H] [DecidableEq W]

lemma forkPoint : Stacked u (n.journal.saved.drop second.length) ∧
      u.headBlockId = n.headBlockId.drop second.length :=
  h.stacked.ancestor h.saved

lemma length_first : first.length + u.headBlockNumber = newHead.num := by
  have hmeet := congrArg length h.branches.meet
  rw [← h.forkPoint.2, length_drop, ← h.forkPoint.1.num] at hmeet
  have hle := h.branches.first_le
  have hnum : newHead.id.length = newHead.num := rfl
  omega

end

variable (hsplit : first.reverse = done ++ invalid)
include hsplit

lemma headBlockId_done (happly : rules.applyBlocks u (done.map data) = .ok s) :
    s.headBlockId = newHead.id.drop invalid.length := by
  have hfst : first = invalid.reverse ++ done.reverse := by
    rw [← reverse_append, ← hsplit, reverse_reverse]
  have hid := h.branches.descends_first.id_eq
  rw [h.branches.meet, ← h.forkPoint.2] at hid
  have hdone := Rules.headBlockId_applyBlocks happly
  have hsame : newHead.id = (invalid.reverse.map fun i => i.data.header) ++ s.headBlockId := by
    calc newHead.id = (first.map fun i => i.data.header) ++ u.headBlockId := hid
      _ = (invalid.reverse.map fun i => i.data.header) ++
            ((done.map data).map SignedBlock.header).reverse ++ u.headBlockId := by
          rw [hfst, map_append, map_map, ← map_reverse]
          rfl
      _ = _ := by rw [append_assoc, ← hdone]
  have hlen : invalid.length = (invalid.reverse.map fun i => i.data.header).length := by simp
  rw [hsame, hlen, drop_left]

omit [DecidableEq W] in
/-- The blocks of the new branch that were applied are still in the fork database after the others
have been removed. -/
lemma done_known (hinv : 0 < invalid.length)
    (hkps : n.forkDb.Keeps (u.headBlockNumber + 1) written db)
    (locals : List (ForkItem H Tx Sched)) {k : Nat} (hk : k < done.length) :
    ∃ i ∈ (invalid.foldl (fun db i => db.remove locals i.id) db).index,
      i.id = newHead.id.drop (invalid.length + k) := by
  have hlen : done.length + invalid.length = first.length := by
    rw [← length_append, ← hsplit, length_reverse]
  have hfst := h.length_first
  have hnum : newHead.id.length = newHead.num := rfl
  have hlt : invalid.length + k < first.length := by omega
  -- the item is the one at this place of the branch
  have hget : first[invalid.length + k]? = some first[invalid.length + k] :=
    getElem?_eq_getElem hlt
  have hid := h.branches.descends_first.id_getElem hget
  have hitem : first[invalid.length + k].num = newHead.num - (invalid.length + k) := by
    change first[invalid.length + k].id.length = _
    rw [hid, length_drop, hnum]
  have hidx : first[invalid.length + k] ∈ n.forkDb.index := by
    refine h.mem_index (mem_append_left _ (getElem_mem hlt)) ?_
    intro heq
    have := num_eq_of_id heq
    omega
  obtain ⟨i, hi, hii⟩ := hkps.ids _ hidx (by omega)
  refine ⟨i, ?_, hii.trans hid⟩
  obtain ⟨head, hrem⟩ := removeAll_eq db locals invalid
  rw [hrem, mem_filter, decide_eq_true_eq]
  refine ⟨hi, ?_⟩
  -- the removed blocks are higher
  intro hmem
  obtain ⟨y, hy, hyi⟩ := mem_map.1 hmem
  obtain ⟨l, hl⟩ := mem_iff_getElem?.1 (mem_reverse.2 hy)
  have hll : l < invalid.length := by
    simpa using (List.getElem?_eq_some_iff.1 hl).1
  have hyl : first[l]? = some y := by
    have hfst : first = invalid.reverse ++ done.reverse := by
      rw [← reverse_append, ← hsplit, reverse_reverse]
    rw [hfst, getElem?_append_left (by simpa using hll), hl]
  have hylen := congrArg length (h.branches.descends_first.id_getElem hyl)
  rw [hyi, hii, hid, length_drop, length_drop, hnum] at hylen
  omega

end

structure Unwound (rules : NodeRules H Tx TxId W R Sched) (n : Node H Tx W R Sched)
    (first second : List (ForkItem H Tx Sched)) (front : ForkItem H Tx Sched)
    (u : ChainState H Tx W R) (e : ChainError) (done invalid : List (ForkItem H Tx Sched))
    (popped popped2 : List Tx) (n2 n' : Node H Tx W R Sched) : Prop where
  split : first.reverse = done ++ invalid
  invalid_pos : 0 < invalid.length
  applied : rules.applyBlocks u (done.map ForkItem.data) = .ok n2.state
  pushed : pushFork rules first.reverse (n.atForkPoint u second.length popped) =
    .error (e, invalid) n2
  restored : restoreFork rules second.reverse
    ((n2.dropInvalid (first ++ second) invalid front).atForkPoint u done.length popped2) = .ok () n'
  thrown : switchTo rules first second front (n.headBlockId.drop second.length) n = .error e n'
  state : n'.state = n.state

variable (h : Forked n heap newHead first second u)
include h

lemma Unwound.newHead_mem {popped popped2 : List Tx} {n2 : Node H Tx W R Sched}
    (hun : Unwound rules n first second front u e done invalid popped popped2 n2 n') :
    newHead.id ∈ invalid.map ForkItem.id := by
  have hne : invalid ≠ [] := length_pos_iff.1 hun.invalid_pos
  have hlast : first[0]? = some (invalid.getLast hne) := by
    rw [← head?_eq_getElem?, ← getLast?_reverse, hun.split,
      getLast?_append_of_ne_nil _ hne, getLast?_eq_some_getLast hne]
  have hlai := h.branches.descends_first.id_getElem hlast
  exact mem_map.2 ⟨_, getLast_mem hne, by simpa using hlai⟩

/-- A block of the new branch fails: what was applied is popped, and the old branch restored. -/
theorem switchTo_unwinds
    (hbranch : ¬ n.headBlockId <:+ newHead.id)
    (hun : Unwindable rules n.state u newHead.num first second)
    (hfails : ∀ s, rules.applyBlocks u (first.reverse.map data) ≠ .ok s)
    (hfrt : second.head? = some front) : ∃ e done invalid popped popped2 n2 n',
      Unwound rules n first second front u e done invalid popped popped2 n2 n' := by
  obtain ⟨popped, hpop1⟩ := h.popUntil_eq
  rcases pushFork_cases rules first.reverse (n.atForkPoint u second.length popped) with
    ⟨n', -, hblo⟩ | ⟨e, done, x, rest, n2, hsplit, hpush, hblo, hfail⟩
  · exact absurd hblo (hfails _)
  have hdone : rules.applyBlocks u (done.map data) = .ok n2.state := hblo
  have hid : n2.headBlockId = newHead.id.drop (x :: rest).length := h.headBlockId_done hsplit hdone
  have hfri : front.id = n.headBlockId := by
    have := h.branches.descends_second.id_getElem (k := 0) (i := front) (by
      rw [← head?_eq_getElem?]; exact hfrt)
    simpa using this
  have hev : Evolves rules.toRules heap (n.headBlockId.drop second.length)
      (n.atForkPoint u second.length popped) n2 := by
    have hlives : (n.atForkPoint u second.length popped).forkDb.LivesIn heap := h.lives
    have hpus : Evolves rules.toRules heap (n.headBlockId.drop second.length) _ _ :=
      (switches_evolves fun _ => True).pushFork first.reverse (fun _ _ => trivial) _ hlives
    rwa [hpush] at hpus
  have hstack : Stacked n2.state n2.journal.saved := h.forkPoint.1.steps hev.steps
  set n3 := n2.dropInvalid (first ++ second) (x :: rest) front with hn3
  -- the state at the fork point is saved below what was applied, and its blocks are known
  have hsaved : (n2.state :: n2.journal.saved)[done.length]? = some u ∧
      ∀ k < done.length, ∃ i ∈ n3.forkDb.index, i.id = n2.headBlockId.drop k := by
    cases hd : done with
    | nil =>
      rw [hd] at hdone
      cases hdone
      exact ⟨rfl, by simp⟩
    | cons d =>
      have hlast : first.getLast? = some d := by
        rw [← head?_reverse, hsplit, hd]
        rfl
      obtain ⟨s', hs'⟩ : ∃ s', rules.applyBlock u d.data = .ok s' := by
        rw [hd] at hdone
        simp only [map_cons, Rules.applyBlocks, bind_eq_ok] at hdone
        obtain ⟨s', hs', -⟩ := hdone
        exact ⟨s', hs'⟩
      have hw := hun.window d s' hlast hs'
      have hlen : (done ++ x :: rest).length = first.length := by
        rw [← hsplit, length_reverse]
      rw [← hd]
      constructor
      · have hgoal := pushFork_saved (i := 0) (u := u) (hsplit ▸ hpush) hblo hfail
          (hsplit ▸ hw) (by rw [hlen]; have := h.length_first; omega) rfl (zero_le _)
        simpa using hgoal
      · intro k hk
        have hkps : n.forkDb.Keeps (u.headBlockNumber + 1) (first.map addr)
            n2.forkDb := by
          have htop : (n.atForkPoint u second.length popped).forkDb.head.map num =
              some newHead.num := by
            change n.forkDb.head.map num = some newHead.num
            rw [h.head]
            rfl
          have hwri : ∀ i ∈ first.reverse, i.addr ∈ first.map addr :=
            fun i hi => mem_map_of_mem (mem_reverse.1 hi)
          have hkept := pushFork_keeps htop hw hwri
          rwa [hpush] at hkept
        obtain ⟨i, hi, hii⟩ := h.done_known hsplit (succ_pos _) hkps (first ++ second) hk
        refine ⟨i, hi, ?_⟩
        rw [hii, hid, drop_drop]
  have hto : n.headBlockId.drop second.length = n2.headBlockId.drop done.length := by
    rw [← h.forkPoint.2]
    exact (hstack.ancestor hsaved.1).2
  obtain ⟨popped2, hpop⟩ : ∃ popped2, popUntil (first ++ second) (n.headBlockId.drop second.length)
      n2.journal.saved.length n3 = .ok () (n3.atForkPoint u done.length popped2) := by
    have hfuel : done.length ≤ n2.journal.saved.length := by
      have hlt := (List.getElem?_eq_some_iff.1 hsaved.1).1
      simpa using le_of_lt_succ hlt
    rw [hto]
    have hhead : n3.forkDb.head = some front := rfl
    refine popUntil_ok (first ++ second) (n := n3) hstack hsaved.1 hfuel hhead ?_ hsaved.2
    -- the old head is not on the new branch
    intro k _ heq
    apply hbranch
    rw [← hfri, heq]
    refine (drop_suffix k _).trans ?_
    change n2.headBlockId <:+ _
    rw [hid]
    exact drop_suffix _ _
  have hrep : rules.applyBlocks (n3.atForkPoint u done.length popped2).state
      (second.reverse.map data) = .ok n.state := hun.replays
  obtain ⟨n', hrest, hst⟩ := restoreFork_ok hrep
  refine ⟨e, done, x :: rest, popped, popped2, n2, n', hsplit, succ_pos _, hdone, hpush, hrest,
    ?_, hst⟩
  simp only [switchTo, hpop1, hpush, switchBack, ← hn3, hpop, hrest]

end Forked

omit [DecidableEq TxId] [DecidableEq W] in
lemma SwitchTried.forked (hn : n.Valid) {p : Push H Tx} {newHead : ForkItem H Tx Sched}
    (h : SwitchTried rules n p newHead db) {first second : List (ForkItem H Tx Sched)}
    (hfet : db.fetchBranchFrom newHead.id n.headBlockId = .ok (first, second))
    (hu : (n.state :: n.journal.saved)[second.length]? = some u) :
    ∃ heap, Forked { n with forkDb := db } heap newHead first second u := by
  obtain ⟨heap0, hlives⟩ := hn.lives
  obtain ⟨heap, -, hdb⟩ := hlives.pushBlock h.pushed
  obtain ⟨item, -, hpus⟩ := pushBlock_ok h.pushed
  exact ⟨heap, hn.stacked, hdb, hpus.head, h.higher, fetchBranchFrom_ok hdb hfet, hu⟩

end Node

end Graphene.Chain
