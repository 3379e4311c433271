import Graphene.Chain.Unwinding

/-!
# A failed push leaves no trace

`push_block` is documented to unwind every partial change when it throws.  The head of the fork
database follows the head of the chain as long as every fork switch that is tried finds its two
branches, finds the fork point on the undo stack, and can be unwound when a block of the new branch
fails (`StepSafe`).
-/

namespace Graphene.Chain

open Lib List ForkDatabase
open ForkItem (addr data num previousId)

variable {H Tx TxId W R Sched : Type} [DecidableEq H] [DecidableEq TxId] [DecidableEq W]

namespace Node

variable {rules : NodeRules H Tx TxId W R Sched} {heap : Heap H Tx}

/-! ## The head of the fork database -/

variable {b : SignedBlock H Tx} {db : ForkDatabase H Tx Sched} {id : BlockId H}
  {n : Node H Tx W R Sched} {s : ChainState H Tx W R}

omit [DecidableEq W] in
lemma newMaxSize_pos {size : Nat} (h : newMaxSize rules s b = some size) : 0 < size := by
  unfold newMaxSize at h
  split at h
  · cases h
  · split at h
    · cases h
    · cases h
      exact Nat.succ_pos _

lemma windowReaches_of_le {top low : Nat} (h : top ≤ low + 1) (s : ChainState H Tx W R)
    (bs : List (SignedBlock H Tx)) : WindowReaches rules top low s bs := by
  induction bs generalizing s with
  | nil => trivial
  | cons b bs ih =>
    refine ⟨?_, fun s' _ => ih s'⟩
    intro size hsize
    have hpos := newMaxSize_pos hsize
    omega

variable (rules) in
lemma pushFork_keeps_branch {newHead : ForkItem H Tx Sched} (first second : List (ForkItem H Tx Sched))
    (u : ChainState H Tx W R) (popped : List Tx) (hhead : db.head = some newHead)
    (hle : newHead.num ≤ n.headBlockId.length + 1) : db.Keeps n.headBlockId.length
      (first.map addr) (after (pushFork rules first.reverse
        (atForkPoint { n with forkDb := db } u second.length popped))).forkDb := by
  have htop : (atForkPoint { n with forkDb := db } u second.length popped).forkDb.head.map
      num = some newHead.num := congrArg (Option.map num) hhead
  exact pushFork_keeps htop (windowReaches_of_le hle _ _)
    (fun i hi => mem_map_of_mem (mem_reverse.1 hi))

section

omit [DecidableEq W]

lemma sessionForkDb_head : (sessionForkDb rules s db b).head = db.head := by
  unfold sessionForkDb
  cases newMaxSize rules s b with
  | none => rfl
  | some =>
    simp only [setMaxSize]
    cases db.head <;> rfl

lemma sessionForkDb_atHead (h : db.AtHead id) : (sessionForkDb rules s db b).AtHead id := by
  unfold sessionForkDb
  cases hsize : newMaxSize rules s b with
  | none => exact h
  | some => exact h.setMaxSize (newMaxSize_pos hsize)

end

lemma pushFork_atHead (h : n.forkDb.AtHead id) (items : List (ForkItem H Tx Sched)) :
    (after (pushFork rules items n)).forkDb.AtHead id := by
  induction items generalizing n with
  | nil => exact h
  | cons item rest ih =>
    have hses : (sessionForkDb rules n.state n.forkDb item.data).AtHead id :=
      sessionForkDb_atHead h
    cases happ : rules.applyBlock n.state item.data with
    | error =>
      rwa [pushFork_cons_error happ]
    | ok =>
      rw [pushFork_cons_ok happ]
      exact ih (hses.setScheduled _ _)

lemma restoreFork_atHead (rules : NodeRules H Tx TxId W R Sched) (h : n.forkDb.AtHead id)
    (items : List (ForkItem H Tx Sched)) : (after (restoreFork rules items n)).forkDb.AtHead id ∧
      (after (restoreFork rules items n)).forkDb.head = n.forkDb.head := by
  induction items generalizing n with
  | nil => exact ⟨h, rfl⟩
  | cons item rest ih =>
    have hses : (sessionForkDb rules n.state n.forkDb item.data).AtHead id :=
      sessionForkDb_atHead h
    have hhead : (sessionForkDb rules n.state n.forkDb item.data).head = n.forkDb.head :=
      sessionForkDb_head
    cases happ : rules.applyBlock n.state item.data with
    | error =>
      simp only [restoreFork, applyInSession_error happ]
      exact ⟨hses, hhead⟩
    | ok s =>
      simp only [restoreFork, applyInSession_ok happ]
      have hrec := ih (n := store { n with
        journal := (sessionJournal rules n.journal item.data).write s
        forkDb := sessionForkDb rules n.state n.forkDb item.data } item.data) hses
      exact ⟨hrec.1, hrec.2.trans hhead⟩

structure Sound (n : Node H Tx W R Sched) : Prop where
  valid : n.Valid
  atHead : n.forkDb.AtHead n.headBlockId

/-- The chain and the head of the fork database are what they were. -/
structure Unchanged (n n' : Node H Tx W R Sched) : Prop where
  state : n'.state = n.state
  head : n'.forkDb.head = n.forkDb.head

/-! ## A block on top of the head -/

omit [DecidableEq H] in
lemma id_ne_nil (i : ForkItem H Tx Sched) : i.id ≠ [] := cons_ne_nil _ _

variable {newHead : ForkItem H Tx Sched} {e : ChainError}

section

variable (hn : n.forkDb.AtHead n.headBlockId) (hpush : n.forkDb.pushBlock b = .ok (newHead, db))
  (hprev : newHead.previousId = n.headBlockId)
include hn hpush hprev

omit [DecidableEq W] in
lemma headMoved_of_child : ForkDatabase.IsNewItem n.forkDb b newHead ∧
      ForkDatabase.AtHead.HeadMoved n.forkDb n.headBlockId newHead db := by
  obtain ⟨item, hitem, hpus⟩ := pushBlock_ok hpush
  rcases hn.pushBlock hitem hpus with ⟨rfl, hmvd⟩ | ⟨hhead, -, -⟩
  · exact ⟨hitem, hmvd⟩
  · -- the old head is not its own predecessor
    have hid := (hn.num_head hhead).2.1
    rw [← hprev] at hid
    have hlen := congrArg length hid
    simp [ForkItem.id, SignedBlock.id, previousId] at hlen

lemma pushOnHead_ok (now : Nat) (happ : rules.applyBlock n.state b = .ok s) :
    ∃ n', pushOnHead rules now b newHead { n with forkDb := db } = .ok false n' ∧
      n'.state = s ∧ n'.forkDb.AtHead n'.headBlockId := by
  obtain ⟨hitem, hmvd⟩ := headMoved_of_child hn hpush hprev
  have hid : s.headBlockId = newHead.id := by
    rw [(Rules.applyBlock_ok happ).headBlockId, ForkItem.id, hitem.data]
  have happ' : rules.applyBlock (Node.state { n with forkDb := db }) b = .ok s := happ
  have hses : (sessionForkDb rules n.state db b).AtHead s.headBlockId := by
    rw [hid]
    exact sessionForkDb_atHead hmvd.atHead
  simp only [pushOnHead, applyInSession_ok happ']
  refine ⟨_, rfl, ?_, ?_⟩
  · split_ifs <;> rfl
  · split_ifs
    · exact hses.setScheduled _ _
    · exact hses

/-- A block on top of the head that fails is removed again, and the weak link of its item leads back
to the old head. -/
lemma pushOnHead_error (now : Nat) (happ : rules.applyBlock n.state b = .error e) :
    ∃ n', pushOnHead rules now b newHead { n with forkDb := db } = .error e n' ∧
      Unchanged n n' ∧ n'.forkDb.AtHead n.headBlockId := by
  obtain ⟨hitem, hmoved⟩ := headMoved_of_child hn hpush hprev
  have happ' : rules.applyBlock (Node.state { n with forkDb := db }) b = .error e := happ
  set left := sessionForkDb rules n.state db b with hleft
  have hses : left.AtHead newHead.id := sessionForkDb_atHead hmoved.atHead
  have hhead : left.head = some newHead := by
    rw [hleft, sessionForkDb_head, hmoved.head]
  have hbid : b.id = newHead.id := by rw [ForkItem.id, hitem.data]
  have hnum : newHead.num = n.headBlockId.length + 1 := by
    rw [← hprev]
    rfl
  have hkeeps : db.Keeps n.headBlockId.length [] left := by
    have htop : db.head.map num = some newHead.num := by
      rw [hmoved.head]
      rfl
    refine keeps_sessionForkDb [] htop ?_
    intro size hsize
    have hpos := newMaxSize_pos hsize
    omega
  -- whatever is left in the index was there before
  have hold : ∀ i ∈ left.index, i.id ≠ newHead.id →
      ∃ j ∈ n.forkDb.index, j.id = i.id := by
    intro i hi hne
    obtain ⟨j, hj, hji⟩ := hkeeps.old i hi
    rcases hmoved.old j hj with rfl | hj
    · exact absurd hji.symm hne
    · exact ⟨j, hj, hji⟩
  have hbelow : ∀ i ∈ left.index, decide (i.id ≠ newHead.id) = true →
      i.num ≤ n.headBlockId.length := by
    intro i hi hne
    obtain ⟨j, hj, hji⟩ := hold i hi (of_decide_eq_true hne)
    rw [← num_eq_of_id hji]
    exact hn.below j hj
  simp only [pushOnHead, applyInSession_error happ']
  refine ⟨_, rfl, ?_⟩
  change Unchanged n { n with
      journal := ⟨n.state, n.journal.saved.take n.journal.bound,
        (sessionJournal rules n.journal b).bound⟩
      forkDb := left.remove [newHead] b.id } ∧
    (left.remove [newHead] b.id).AtHead n.headBlockId
  rw [hbid]
  rcases hn.head with ⟨hnone, hnil, hnull⟩ | ⟨head, hhead', hmem, hid⟩
  · -- the first block
    have hlink : newHead.prev = none := by
      rcases hitem.link with ⟨hlink, -⟩ | ⟨q, hq, -⟩
      · exact hlink
      · obtain ⟨hq, -⟩ := fetchBlock_eq_some hq
        rw [hnil] at hq
        cases hq
    rw [ForkDatabase.AtHead.remove_first hhead hlink]
    refine ⟨⟨rfl, hnone.symm⟩, hses.rehead hbelow (.inl ⟨rfl, ?_, hnull⟩) hses.maxSize_pos⟩
    rw [filter_eq_nil_iff]
    intro i hi hne
    obtain ⟨j, hj, -⟩ := hold i hi (of_decide_eq_true hne)
    rw [hnil] at hj
    cases hj
  · -- the link was looked up under the id of the old head
    have hprevB : b.previous = n.headBlockId := by
      rw [← hprev, previousId, hitem.data]
    have hlink : newHead.prev = some head.addr := by
      rcases hitem.link with ⟨-, hbad | hbad⟩ | ⟨q, hq, hlink⟩
      · rw [hhead'] at hbad
        cases hbad
      · rw [hprevB, ← hid] at hbad
        exact absurd hbad (id_ne_nil head)
      · obtain ⟨hqmem, hqid⟩ := fetchBlock_eq_some hq
        rw [hlink, hn.eq_of_id hqmem hmem (by rw [hqid, hprevB, hid])]
    have hhen : head.num = n.headBlockId.length := (hn.num_head hhead').2.2
    have hkept : head ∈ left.index :=
      hkeeps.items head (hmoved.kept head hmem (by omega)) (by omega) (by simp)
    have hne : head.id ≠ newHead.id := by
      intro heq
      have := num_eq_of_id heq
      omega
    rw [hses.remove_head hhead hkept hlink hne]
    exact ⟨⟨rfl, hhead'.symm⟩,
      hses.rehead hbelow (.inr ⟨head, rfl, hkept, decide_eq_true hne, hid⟩) hses.maxSize_pos⟩

end

/-! ## Switching forks -/

variable (rules n) in
/-- A fork switch finds both branches and the state at the fork point, and the new branch either
applies or can be unwound. -/
def SwitchSafe (newHead : ForkItem H Tx Sched) (db : ForkDatabase H Tx Sched) : Prop :=
  ∃ first second u, db.fetchBranchFrom newHead.id n.headBlockId = .ok (first, second) ∧
    (n.state :: n.journal.saved)[second.length]? = some u ∧
    ((∃ s, rules.applyBlocks u (first.reverse.map ForkItem.data) = .ok s) ∨
      Unwindable rules n.state u newHead.num first second)

variable (rules n) in
/-- What a call of `push_block` has to meet to be atomic. -/
structure StepSafe (p : Push H Tx) : Prop where
  firstBlock : n.forkDb.head = none → p.block.previous = n.headBlockId
  switch : ∀ newHead db, SwitchTried rules n p newHead db → SwitchSafe rules n newHead db

variable {p : Push H Tx}

omit [DecidableEq TxId] [DecidableEq W] in
lemma SwitchTried.headMoved (hn : n.Sound)
    (hfst : n.forkDb.head = none → p.block.previous = n.headBlockId)
    (h : SwitchTried rules n p newHead db) :
    ForkDatabase.AtHead.HeadMoved n.forkDb n.headBlockId newHead db ∧
      newHead.num = n.headBlockId.length + 1 ∧ ¬ n.headBlockId <:+ newHead.id := by
  have hlen : n.headBlockNum = n.headBlockId.length := hn.valid.stacked.num
  have hhig : n.headBlockId.length < newHead.num := by
    rw [← hlen]
    exact h.higher
  obtain ⟨item, hitem, hpus⟩ := pushBlock_ok h.pushed
  rcases hn.atHead.pushBlock hitem hpus with ⟨rfl, hmvd⟩ | ⟨hhead, -, -⟩
  · have hprev : newHead.previousId = p.block.previous := by
      rw [previousId, hitem.data]
    have hnum : newHead.num = n.headBlockId.length + 1 := by
      refine le_antisymm ?_ hhig
      change newHead.previousId.length + 1 ≤ _
      rw [hprev]
      rcases hitem.link with ⟨-, hnone | hnull⟩ | ⟨q, hq, -⟩
      · exact absurd (hprev.trans (hfst hnone)) h.otherBranch
      · simp [hnull]
      · obtain ⟨hmem, hid⟩ := fetchBlock_eq_some hq
        rw [← hid]
        exact Nat.succ_le_succ (hn.atHead.below q hmem)
    refine ⟨hmvd, hnum, ?_⟩
    rintro ⟨front, hfrt⟩
    -- only the header of the new block is missing from the suffix
    have hone : front.length = 1 := by
      have := congrArg length hfrt
      have hid : newHead.id.length = newHead.num := rfl
      rw [length_append, hid, hnum] at this
      omega
    obtain ⟨x, rfl⟩ := length_eq_one_iff.1 hone
    have htail := congrArg tail hfrt
    exact h.otherBranch htail.symm
  · have hbad := (hn.atHead.num_head hhead).2.2
    omega

variable {front : ForkItem H Tx Sched} {first second : List (ForkItem H Tx Sched)}
    {u : ChainState H Tx W R}

section

variable (hn : n.Sound) (hmvd : ForkDatabase.AtHead.HeadMoved n.forkDb n.headBlockId newHead db)
  (hnum : newHead.num = n.headBlockId.length + 1)
include hn hmvd hnum

omit [DecidableEq H] [DecidableEq W] in
lemma front_eq (hf : Forked { n with forkDb := db } heap newHead first second u)
    (hfrt : second.head? = some front) :
    front.id = n.headBlockId ∧ front ∈ db.index ∧ n.forkDb.head = some front := by
  have hid : front.id = n.headBlockId := by
    have hget : second[0]? = some front := by
      rwa [← head?_eq_getElem?]
    exact hf.branches.descends_second.id_getElem hget
  have hmem : front ∈ db.index := by
    refine hf.mem_index (mem_append_right _ (mem_of_head? hfrt)) ?_
    rw [hid]
    exact fun heq => hf.newHead_ne 0 heq.symm
  refine ⟨hid, hmem, ?_⟩
  rcases hn.atHead.head with ⟨-, -, hnull⟩ | ⟨head, hhead, hhem, hhei⟩
  · rw [hnull] at hid
    exact absurd hid (id_ne_nil front)
  · have hhen := (hn.atHead.num_head hhead).2.2
    have hkept : head ∈ db.index := hmvd.kept head hhem (by omega)
    rw [hhead, hmvd.atHead.eq_of_id hkept hmem (hhei.trans hid.symm)]

lemma unwound_atHead (hbranch : ¬ n.headBlockId <:+ newHead.id)
    (hf : Forked { n with forkDb := db } heap newHead first second u)
    (hfrt : second.head? = some front) {done invalid : List (ForkItem H Tx Sched)}
    {popped popped2 : List Tx} {n2 n' : Node H Tx W R Sched}
    (hun : Forked.Unwound rules { n with forkDb := db } first second front u e done invalid popped
      popped2 n2 n') : n'.forkDb.head = n.forkDb.head ∧ n'.forkDb.AtHead n.headBlockId := by
  obtain ⟨hid, hmem, hhead⟩ := front_eq hn hmvd hnum hf hfrt
  have hfrn : front.num = n.headBlockId.length := by
    rw [← hid]
    rfl
  -- no item of the new branch has the id of the old head
  have hoth : ∀ i ∈ first, i.id ≠ front.id := by
    intro i hi heq
    obtain ⟨k, hk⟩ := mem_iff_getElem?.1 hi
    apply hbranch
    rw [← hid, ← heq, hf.branches.descends_first.id_getElem hk]
    exact drop_suffix _ _
  have hfst : ∀ i ∈ first, i ∈ db.index := by
    intro i hi
    rcases mem_owned.1 (hf.branches.owned i (mem_append_left _ hi)) with hi | hi
    · exact hi
    · rw [hf.head] at hi
      cases hi
      exact hmvd.mem
  have hinv : ∀ i ∈ invalid, i ∈ first := by
    intro i hi
    rw [← mem_reverse, hun.split]
    exact mem_append_right _ hi
  have hnode : after (pushFork rules first.reverse
      (atForkPoint { n with forkDb := db } u second.length popped)) = n2 := by rw [hun.pushed]; rfl
  have hat : n2.forkDb.AtHead newHead.id := by
    rw [← hnode]
    exact pushFork_atHead hmvd.atHead _
  have hkps : db.Keeps n.headBlockId.length (first.map addr) n2.forkDb := by
    rw [← hnode]
    exact pushFork_keeps_branch _ _ _ _ _ hmvd.head (by omega)
  have hkept : front ∈ n2.forkDb.index := by
    refine hkps.items front hmem (by omega) ?_
    intro hwri
    obtain ⟨i, hi, haddr⟩ := mem_map.1 hwri
    exact hoth i hi (by rw [inj_on_of_nodup_map hmvd.atHead.addrs (hfst i hi) hmem haddr])
  have htop : newHead.id ∈ invalid.map ForkItem.id := Forked.Unwound.newHead_mem hf hun
  obtain ⟨head', hrem⟩ := removeAll_eq n2.forkDb (first ++ second) invalid
  have hdro : (n2.dropInvalid (first ++ second) invalid front).forkDb.AtHead n.headBlockId := by
    unfold dropInvalid
    rw [hrem]
    refine hat.rehead ?_ (.inr ⟨front, rfl, hkept, decide_eq_true ?_, hid⟩) hat.maxSize_pos
    · intro i hi hne
      obtain ⟨j, hj, hji⟩ := hkps.old i hi
      rw [← num_eq_of_id hji]
      rcases hmvd.old j hj with rfl | hj
      · rw [hji] at htop
        exact absurd htop (of_decide_eq_true hne)
      · exact hn.atHead.below j hj
    · intro hbad
      obtain ⟨i, hi, hidi⟩ := mem_map.1 hbad
      exact hoth i (hinv i hi) hidi
  have hpoint : ((n2.dropInvalid (first ++ second) invalid front).atForkPoint u
      done.length popped2).forkDb.AtHead n.headBlockId := hdro
  have hrest := restoreFork_atHead rules hpoint second.reverse
  rw [hun.restored] at hrest
  exact ⟨hrest.2.trans hhead.symm, hrest.1⟩

end

variable (n) in
structure SwitchCase (newHead : ForkItem H Tx Sched) (db : ForkDatabase H Tx Sched)
    (heap : Heap H Tx) (first second : List (ForkItem H Tx Sched)) (u : ChainState H Tx W R)
    (front : ForkItem H Tx Sched) : Prop where
  moved : ForkDatabase.AtHead.HeadMoved n.forkDb n.headBlockId newHead db
  num : newHead.num = n.headBlockId.length + 1
  otherBranch : ¬ n.headBlockId <:+ newHead.id
  forked : Forked { n with forkDb := db } heap newHead first second u
  front : second.head? = some front

section

variable (hn : n.Sound) (hsafe : StepSafe rules n p) (htried : SwitchTried rules n p newHead db)
include hn hsafe htried

lemma switchForks_cases :
    ∃ heap first second u front, SwitchCase n newHead db heap first second u front ∧
      ((∃ popped n', rules.applyBlocks u (first.reverse.map data) = .ok n'.state ∧
          pushFork rules first.reverse (atForkPoint { n with forkDb := db } u second.length popped) =
            .ok () n' ∧ switchForks rules newHead { n with forkDb := db } = .ok true n') ∨
        ∃ e done invalid popped popped2 n2 n', Unwindable rules n.state u newHead.num first second ∧
          Forked.Unwound rules { n with forkDb := db } first second front u e done invalid popped
            popped2 n2 n' ∧ switchForks rules newHead { n with forkDb := db } = .error e n') := by
  obtain ⟨hmvd, hnum, hbranch⟩ := htried.headMoved hn hsafe.firstBlock
  obtain ⟨first, second, u, hfet, hu, hout⟩ := hsafe.switch newHead db htried
  obtain ⟨heap, hf⟩ := htried.forked hn.valid hfet hu
  have hfet' : fetchBranchFrom (Node.forkDb { n with forkDb := db }) newHead.id
      (headBlockId { n with forkDb := db }) = .ok (first, second) := hfet
  obtain ⟨front, hfrt, heq⟩ := switchForks_eq rules hf.lives hfet'
  refine ⟨heap, first, second, u, front, ⟨hmvd, hnum, hbranch, hf, hfrt⟩, ?_⟩
  rw [heq]
  by_cases happly : ∃ s, rules.applyBlocks u (first.reverse.map data) = .ok s
  · obtain ⟨s, hs⟩ := happly
    obtain ⟨popped, n', hpush, hswi, rfl⟩ := hf.switchTo_ok front hs
    exact .inl ⟨popped, n', hs, hpush, hswi⟩
  · have hfails : ∀ s, rules.applyBlocks u (first.reverse.map data) ≠ .ok s :=
      fun s hs => happly ⟨s, hs⟩
    have hun := hout.resolve_left happly
    rcases hf.switchTo_unwinds hbranch hun hfails hfrt with
      ⟨e, done, invalid, popped, popped2, n2, n', hunw⟩
    exact .inr ⟨e, done, invalid, popped, popped2, n2, n', hun, hunw, hunw.thrown⟩

lemma switchForks_sound :
    (∃ n', switchForks rules newHead { n with forkDb := db } = .ok true n' ∧
      n'.forkDb.AtHead n'.headBlockId) ∨
    ∃ e n', switchForks rules newHead { n with forkDb := db } = .error e n' ∧ Unchanged n n' ∧
      n'.forkDb.AtHead n.headBlockId := by
  rcases switchForks_cases hn hsafe htried with ⟨heap, first, second, u, front, hcase,
    ⟨popped, n', happly, hpush, hswi⟩ |
    ⟨e, done, invalid, popped, popped2, n2, n', -, hunw, hswi⟩⟩
  · refine .inl ⟨n', hswi, ?_⟩
    have hid : n'.headBlockId = newHead.id := by
      have hwhole : first.reverse = first.reverse ++ [] := (append_nil _).symm
      exact hcase.forked.headBlockId_done hwhole happly
    have hat : (after (pushFork rules first.reverse
        (atForkPoint { n with forkDb := db } u second.length popped))).forkDb.AtHead newHead.id :=
      pushFork_atHead hcase.moved.atHead _
    rw [hpush] at hat
    rwa [hid]
  · rcases unwound_atHead hn hcase.moved hcase.num hcase.otherBranch hcase.forked hcase.front
      hunw with ⟨hhead, hat⟩
    exact .inr ⟨e, n', hswi, ⟨hunw.state, hhead⟩, hat⟩

end

/-! ## Runs -/

omit [DecidableEq H] [DecidableEq W] in
lemma Unchanged.refl (n : Node H Tx W R Sched) : Unchanged n n := ⟨rfl, rfl⟩

lemma pushBlock_sound (hn : n.Sound) (hsafe : StepSafe rules n p) :
    (∃ r n', pushBlock rules p.now p.block n = .ok r n' ∧ n'.forkDb.AtHead n'.headBlockId) ∨
    ∃ e n', pushBlock rules p.now p.block n = .error e n' ∧ Unchanged n n' ∧
      n'.forkDb.AtHead n.headBlockId := by
  rcases pushBlock_cases rules n p with
    ⟨e, h⟩ | ⟨newHead, db, -, hpush, ⟨-, hle, h⟩ | ⟨htried, h⟩ | ⟨hprev, h⟩⟩
  · exact .inr ⟨e, n, h, .refl n, hn.atHead⟩
  · -- a block that is not higher than the head stays in the fork database
    refine .inl ⟨false, _, h, ?_⟩
    have hlen : n.headBlockNum = n.headBlockId.length := hn.valid.stacked.num
    obtain ⟨item, hitem, hpus⟩ := pushBlock_ok hpush
    rcases hn.atHead.pushBlock hitem hpus with ⟨rfl, hmvd⟩ | ⟨-, -, hat⟩
    · have := hmvd.higher
      omega
    · exact hat
  · rw [h]
    rcases switchForks_sound hn hsafe htried with ⟨n', hok, hat⟩ | herr
    · exact .inl ⟨true, n', hok, hat⟩
    · exact .inr herr
  · rw [h]
    cases happ : rules.applyBlock n.state p.block with
    | ok =>
      obtain ⟨n', hok, -, hat⟩ := pushOnHead_ok hn.atHead hpush hprev p.now happ
      exact .inl ⟨false, n', hok, hat⟩
    | error e =>
      obtain ⟨n', herr, hsame, hat⟩ := pushOnHead_error hn.atHead hpush hprev p.now happ
      exact .inr ⟨e, n', herr, hsame, hat⟩

lemma step_sound (hn : n.Sound) (hsafe : StepSafe rules n p) :
    (n.step rules p).2.Sound ∧ ∀ e, (n.step rules p).1 = some e → Unchanged n (n.step rules p).2 := by
  have hvalid : (n.step rules p).2.Valid := step_valid rules hn.valid
  rcases pushBlock_sound hn hsafe with ⟨r, n', h, hat⟩ | ⟨e, n', h, hsame, hat⟩
  · have hstep : n.step rules p = (none, n'.restorePending p.pending) := by
      simp only [step, h]
    rw [hstep] at hvalid ⊢
    exact ⟨⟨hvalid, hat⟩, by simp⟩
  · have hstep : n.step rules p = (some e, n'.restorePending p.pending) := by
      simp only [step, h]
    rw [hstep] at hvalid ⊢
    refine ⟨⟨hvalid, ?_⟩, fun _ _ => ⟨hsame.state, hsame.head⟩⟩
    change n'.forkDb.AtHead n'.state.headBlockId
    rwa [hsame.state]

def RunSafe (rules : NodeRules H Tx TxId W R Sched) : Node H Tx W R Sched → List (Push H Tx) → Prop
  | _, [] => True
  | n, p :: ps => StepSafe rules n p ∧ RunSafe rules (n.step rules p).2 ps

lemma run_sound (hn : n.Sound) {ps qs : List (Push H Tx)} (hsafe : RunSafe rules n (ps ++ qs)) :
    (n.run rules ps).Sound ∧ RunSafe rules (n.run rules ps) qs := by
  induction ps generalizing n with
  | nil => exact ⟨hn, hsafe⟩
  | cons p ps ih => exact ih (step_sound hn hsafe.1).1 hsafe.2

omit [DecidableEq H] [DecidableEq W] in
lemma initial_sound {genesis : ChainState H Tx W R} (h : genesis.IsGenesis) :
    (initial genesis : Node H Tx W R Sched).Sound := by
  refine ⟨initial_valid h, ?_, ?_, ?_, ?_, ?_, .inl ⟨rfl, rfl, h.headBlockId⟩⟩
  · exact nodup_nil
  · exact nodup_nil
  · intro i hi
    cases hi
  · intro i hi
    cases hi
  · exact Nat.succ_pos _

/-! ## Accepting the next block -/

variable (rules n) in
/-- A child of the head that applies and whose signer is the scheduled one, where the fork database
has the schedule. -/
structure ValidChild (b : SignedBlock H Tx) : Prop where
  previous : b.previous = n.headBlockId
  applies : ∃ s, rules.applyBlock n.state b = .ok s
  scheduled : ∀ i sched, n.forkDb.head = some i → i.scheduled = some sched →
    rules.verifySigningWitness n.state b sched = true

lemma fetchBlock_head (h : db.AtHead id) {head : ForkItem H Tx Sched}
    (hhead : db.head = some head) : db.fetchBlock id = some head := by
  obtain ⟨hmem, hid, -⟩ := h.num_head hhead
  obtain ⟨j, hj⟩ := fetchBlock_isSome hmem
  rw [hid] at hj
  obtain ⟨hjmem, hjid⟩ := fetchBlock_eq_some hj
  rw [hj, h.eq_of_id hjmem hmem (hjid.trans hid.symm)]

omit [DecidableEq W] in
lemma forkDb_pushBlock_child (hn : n.forkDb.AtHead n.headBlockId)
    (hprev : b.previous = n.headBlockId) : ∃ newHead db, n.forkDb.pushBlock b = .ok (newHead, db) ∧
      newHead.previousId = n.headBlockId := by
  cases hhead : n.forkDb.head with
  | none =>
    simp only [ForkDatabase.pushBlock, hhead]
    exact ⟨_, _, rfl, hprev⟩
  | some head =>
    obtain ⟨-, hid, hnum⟩ := hn.num_head hhead
    have hb : b.blockNum = head.num + 1 := by
      rw [hnum, ← hprev]
      rfl
    have hre : head.num - n.forkDb.maxSize < b.blockNum := by omega
    have hhig : head.num < b.blockNum := by omega
    have hne : ¬ b.previous = [] := by
      rw [hprev, ← hid]
      exact id_ne_nil head
    have hlink : n.forkDb.linkPrevious b = .ok (some head.addr) := by
      simp only [linkPrevious, hne, if_false]
      rw [hprev, fetchBlock_head hn hhead]
    simp only [ForkDatabase.pushBlock, hhead, hre, if_true, hlink]
    exact ⟨_, _, if_pos hhig, hprev⟩

lemma pushBlock_child (hn : n.forkDb.AtHead n.headBlockId) (hb : ValidChild rules n b) (now : Nat) :
    ∃ newHead db, n.forkDb.pushBlock b = .ok (newHead, db) ∧ newHead.previousId = n.headBlockId ∧
      pushBlock rules now b n = pushOnHead rules now b newHead { n with forkDb := db } := by
  obtain ⟨newHead, db, hpush, hprev⟩ := forkDb_pushBlock_child hn hb.previous
  have hchk : n.earlyCheck rules now b = .ok () := by
    unfold earlyCheck
    split_ifs with hre
    · obtain ⟨head, hhead⟩ := Option.isSome_iff_exists.1 hre.1
      rw [hb.previous, fetchBlock_head hn hhead]
      cases hsched : head.scheduled with
      | none => simp only [hsched]
      | some sched =>
        simp only [hsched]
        exact check_eq_ok.2 (hb.scheduled head sched hhead hsched)
    · rfl
  have hprev' : newHead.previousId = headBlockId { n with forkDb := db } := hprev
  refine ⟨newHead, db, hpush, hprev, ?_⟩
  simp only [pushBlock, hchk, hpush, hprev', ne_eq, not_true_eq_false, if_false]

lemma accepts_child (hn : n.Sound) (hb : ValidChild rules n b) (now : Nat) :
    ∃ n', pushBlock rules now b n = .ok false n' ∧ n'.headBlockId = b.id := by
  obtain ⟨newHead, db, hpush, hprev, heq⟩ := pushBlock_child hn.atHead hb now
  obtain ⟨s, happ⟩ := hb.applies
  obtain ⟨n', hok, hst, -⟩ := pushOnHead_ok hn.atHead hpush hprev now happ
  refine ⟨n', heq.trans hok, ?_⟩
  rw [headBlockId, hst, (Rules.applyBlock_ok happ).headBlockId]

lemma stepSafe_of_not_triesSwitch (hfst : n.forkDb.head = none → p.block.previous = n.headBlockId)
    (h : n.triesSwitch p.block = false) : StepSafe rules n p := by
  refine ⟨hfst, ?_⟩
  intro newHead db htried
  rw [htried.triesSwitch_eq] at h
  cases h

variable (rules n) in
/-- When the call throws, the head block, the object database and the head of the fork database are
what they were, and the node accepts every valid child of its head. -/
def Atomic (p : Push H Tx) : Prop :=
  ∀ e, (n.step rules p).1 = some e →
    (n.step rules p).2.headBlockId = n.headBlockId ∧ (n.step rules p).2.state = n.state ∧
    (n.step rules p).2.forkDb.head = n.forkDb.head ∧
    ∀ now b, ValidChild rules (n.step rules p).2 b →
      ∃ n', pushBlock rules now b (n.step rules p).2 = .ok false n' ∧ n'.headBlockId = b.id

/-- In a run whose calls are safe, every call is atomic. -/
theorem push_block_atomic (rules : NodeRules H Tx TxId W R Sched) (genesis : ChainState H Tx W R)
    (hgenesis : genesis.IsGenesis) (ps : List (Push H Tx)) (p : Push H Tx)
    (hsafe : RunSafe rules (initial genesis) (ps ++ [p])) :
    Atomic rules ((initial genesis).run rules ps) p := by
  intro e hthrow
  obtain ⟨hn, hlast⟩ := run_sound (initial_sound hgenesis) hsafe
  obtain ⟨hn', hsame⟩ := step_sound hn hlast.1
  have hunchanged := hsame e hthrow
  refine ⟨?_, hunchanged.state, hunchanged.head, fun now b hb => accepts_child hn' hb now⟩
  exact congrArg ChainState.headBlockId hunchanged.state

namespace SideBranch

def a1 := plainBlock ⟨1, 0, true⟩ []
def a2 := plainBlock ⟨2, 0, true⟩ a1.id
def a3 := plainBlock ⟨3, 0, true⟩ a2.id

/-- A side branch that starts with an invalid block, which has two children. -/
def b2 := plainBlock ⟨12, 0, false⟩ a1.id
def c3 := plainBlock ⟨13, 0, true⟩ b2.id
def d3 := plainBlock ⟨14, 0, true⟩ b2.id
def e4 := plainBlock ⟨15, 0, true⟩ c3.id
def f4 := plainBlock ⟨16, 0, true⟩ d3.id

def g4 := plainBlock ⟨4, 0, true⟩ a3.id

lemma runSafe : RunSafe plainNodeRules plainNode ([a1, a2, b2].map plainPush ++ [plainPush c3]) := by
  refine ⟨stepSafe_of_not_triesSwitch ?_ rfl, stepSafe_of_not_triesSwitch ?_ rfl,
    stepSafe_of_not_triesSwitch ?_ rfl, ⟨?_, ?_⟩, trivial⟩
  · intro _
    rfl
  · intro h
    cases h
  · intro h
    cases h
  · intro h
    cases h
  · -- the fourth block makes the node switch, and the first block of its branch fails
    intro newHead db htried
    have hpush := htried.pushed
    cases hpush
    refine ⟨_, _, _, rfl, rfl, .inr ⟨?_, rfl⟩⟩
    intro i s' hi happ
    cases hi
    cases happ

theorem push_block_atomic_failed_switch :
    ((plainNode.run plainNodeRules ([a1, a2, b2].map plainPush)).step plainNodeRules
      (plainPush c3)).1 = some .rejected ∧
    Atomic plainNodeRules (plainNode.run plainNodeRules ([a1, a2, b2].map plainPush))
      (plainPush c3) :=
  ⟨by decide +kernel, push_block_atomic plainNodeRules (plainGenesis [0, 1, 2])
    (plainGenesis_isGenesis _) ([a1, a2, b2].map plainPush) (plainPush c3) runSafe⟩

def pushes : List (Push PlainHeader (Nat × Nat)) :=
  [a1, a2, a3, b2, c3, d3, e4].map plainPush

/-- After a switch that failed at `b2`, the weak link of its other child `d3` is dead.  A block on
top of `d3` then makes `push_block` throw with the head of the fork database moved, and the node
refuses a valid child of its own head. -/
theorem push_block_not_atomic :
    ¬ Atomic plainNodeRules (plainNode.run plainNodeRules pushes) (plainPush f4) ∧
    let n := ((plainNode.run plainNodeRules pushes).step plainNodeRules (plainPush f4)).2
    n.headBlockId = g4.previous ∧ (plainNodeRules.applyBlock n.state g4).toBool = true ∧
      (n.step plainNodeRules (plainPush g4)).1 = some .branchNotFound := by
  refine ⟨?_, by decide +kernel⟩
  intro hatomic
  have hthrow : ((plainNode.run plainNodeRules pushes).step plainNodeRules (plainPush f4)).1 =
      some .branchNotFound := by decide +kernel
  have hbefore : (plainNode.run plainNodeRules pushes).forkDb.head.map ForkItem.id =
      some a3.id := by decide +kernel
  have hafter : ((plainNode.run plainNodeRules pushes).step plainNodeRules
      (plainPush f4)).2.forkDb.head.map ForkItem.id = some f4.id := by decide +kernel
  rw [(hatomic _ hthrow).2.2.1, hbefore] at hafter
  exact absurd hafter (by decide +kernel)

end SideBranch

end Node

end Graphene.Chain
