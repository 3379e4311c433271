import Graphene.Chain.PushBlock
import Graphene.Chain.ForkLinks

/-!
# Switching forks

What `push_block` can do to the undo stack and to the items of the fork database: blocks are applied on
top, saved states are dropped from the bottom, and blocks are popped, but never below the fork point.
So the states on the stack stay a chain of blocks.
-/

namespace Graphene.Chain

open Lib List ForkDatabase

variable {H Tx TxId W R Sched : Type} [DecidableEq H] [DecidableEq TxId] [DecidableEq W]

/-- One step on the undo stack; `base` is the block at which popping stops. -/
inductive JournalStep (rules : Rules H Tx TxId W R) (base : BlockId H) :
    Journal (ChainState H Tx W R) → Journal (ChainState H Tx W R) → Prop
  | applied {j : Journal (ChainState H Tx W R)} {b : SignedBlock H Tx} {s : ChainState H Tx W R}
      (bound : Nat) (h : rules.applyBlock j.current b = .ok s) :
      JournalStep rules base j ⟨s, j.current :: j.saved.take j.bound, bound⟩
  | dropped {j : Journal (ChainState H Tx W R)} (keep bound : Nat) :
      JournalStep rules base j ⟨j.current, j.saved.take keep, bound⟩
  | popped {j j' : Journal (ChainState H Tx W R)} (h : j.restore = some j')
      (hne : j.current.headBlockId ≠ base) : JournalStep rules base j j'

/-! ## The states on the undo stack -/

/-- The saved states are those after the ancestors of the head block. -/
def Stacked : ChainState H Tx W R → List (ChainState H Tx W R) → Prop
  | s, [] => s.headBlockNumber = s.headBlockId.length
  | s, u :: saved => s.headBlockNumber = s.headBlockId.length ∧
      (∃ h, s.headBlockId = h :: u.headBlockId) ∧
      u.lastIrreversibleBlockNum ≤ s.lastIrreversibleBlockNum ∧ Stacked u saved

namespace Stacked

variable {s u : ChainState H Tx W R} {saved : List (ChainState H Tx W R)}

variable (h : Stacked s saved)
include h

omit [DecidableEq H] [DecidableEq W]

lemma num : s.headBlockNumber = s.headBlockId.length := by
  cases saved with
  | nil => exact h
  | cons => exact h.1

lemma take (k : Nat) : Stacked s (saved.take k) := by
  induction saved generalizing s k with
  | nil => simpa using h
  | cons u saved ih =>
    cases k with
    | zero => exact h.num
    | succ k => exact ⟨h.1, h.2.1, h.2.2.1, ih h.2.2.2 k⟩

lemma ancestor {k : Nat} (hk : (s :: saved)[k]? = some u) :
    Stacked u (saved.drop k) ∧ u.headBlockId = s.headBlockId.drop k := by
  induction saved generalizing s k with
  | nil =>
    cases k with
    | zero =>
      simp only [getElem?_cons_zero, Option.some.injEq] at hk
      subst hk
      exact ⟨h, rfl⟩
    | succ => simp at hk
  | cons v saved ih =>
    cases k with
    | zero =>
      simp only [getElem?_cons_zero, Option.some.injEq] at hk
      subst hk
      exact ⟨h, rfl⟩
    | succ =>
      obtain ⟨x, hx⟩ := h.2.1
      obtain ⟨hstack, hid⟩ := ih h.2.2.2 hk
      refine ⟨hstack, ?_⟩
      rw [hid, hx]
      rfl

end Stacked

variable {rules : Rules H Tx TxId W R} {n : Node H Tx W R Sched} {db : ForkDatabase H Tx Sched}
  {locals first second : List (ForkItem H Tx Sched)} {newHead : ForkItem H Tx Sched}
  {b : SignedBlock H Tx} {base : BlockId H} {front : ForkItem H Tx Sched} {heap0 : Heap H Tx}

lemma stacked_applyBlock {s s' : ChainState H Tx W R} {saved : List (ChainState H Tx W R)}
    (h : Stacked s saved) (happ : rules.applyBlock s b = .ok s') : Stacked s' (s :: saved) := by
  have hb := Rules.applyBlock_ok happ
  refine ⟨?_, ⟨b.header, ?_⟩, ?_, h⟩
  · rw [hb.headBlockNumber, hb.headBlockId]
    rfl
  · rw [hb.headBlockId, hb.previous]
    rfl
  · rw [hb.irreversible]
    exact Rules.le_updateLastIrreversibleBlock (rules.confirmedBy s b)

lemma Stacked.step {j j' : Journal (ChainState H Tx W R)} (h : JournalStep rules base j j')
    (hs : Stacked j.current j.saved) : Stacked j'.current j'.saved := by
  cases h with
  | applied bound happ => exact stacked_applyBlock (hs.take _) happ
  | dropped keep => exact hs.take keep
  | popped hpop =>
    unfold Journal.restore at hpop
    cases hsaved : j.saved with
    | nil => simp [hsaved] at hpop
    | cons =>
      rw [hsaved] at hs
      simp only [hsaved, Option.some.injEq] at hpop
      rw [← hpop]
      exact hs.2.2.2

lemma Stacked.steps {j j' : Journal (ChainState H Tx W R)}
    (h : Relation.ReflTransGen (JournalStep rules base) j j') (hs : Stacked j.current j.saved) :
    Stacked j'.current j'.saved := by
  induction h with
  | refl => exact hs
  | tail _ hstep ih => exact ih.step hstep

namespace Node

/-! ## What the phases of a switch can do -/

def after {ε α : Type} : EStateM.Result ε (Node H Tx W R Sched) α → Node H Tx W R Sched
  | .ok _ n => n
  | .error _ n => n

/-- A relation between nodes that holds across what a call does when it applies blocks: the blocks
`Tried`, while the caller holds the items `Local`. -/
structure Applies (rules : NodeRules H Tx TxId W R Sched) (Tried : SignedBlock H Tx → Prop)
    (Local : ForkItem H Tx Sched → Prop) (T : Node H Tx W R Sched → Node H Tx W R Sched → Prop) :
    Prop where
  refl : ∀ n, T n n
  trans : ∀ {n1 n2 n3}, T n1 n2 → T n2 n3 → T n1 n3
  tried : ∀ n {b}, Tried b → T n (after (applyInSession rules b n))
  scheduled : ∀ n addr, T n (n.updateWitnesses rules addr)
  stored : ∀ n b, T n (n.store b)
  removed : ∀ n {i} id, Local i → T n { n with forkDb := n.forkDb.remove [i] id }

/-- The same for a call that switches forks and pops no block at `base`. -/
structure Switches (rules : NodeRules H Tx TxId W R Sched) (Tried : SignedBlock H Tx → Prop)
    (Local : ForkItem H Tx Sched → Prop) (base : BlockId H)
    (T : Node H Tx W R Sched → Node H Tx W R Sched → Prop) : Prop
    extends Applies rules Tried Local T where
  popped : ∀ n {locals}, (∀ i ∈ locals, Local i) → n.headBlockId ≠ base →
    T n (after (popBlock locals n))
  dropped : ∀ n {locals} invalid {front}, (∀ i ∈ locals, Local i) → Local front →
    T n (n.dropInvalid locals invalid front)

section Phases

variable {rules : NodeRules H Tx TxId W R Sched} {Tried : SignedBlock H Tx → Prop}
  {Local : ForkItem H Tx Sched → Prop} {T : Node H Tx W R Sched → Node H Tx W R Sched → Prop}

section

variable (h : Applies rules Tried Local T) (items : List (ForkItem H Tx Sched))
  (hitems : ∀ i ∈ items, Tried i.data) (n : Node H Tx W R Sched)
include h hitems

lemma Applies.pushFork : T n (after (pushFork rules items n)) := by
  induction items generalizing n with
  | nil => exact h.refl n
  | cons item rest ih =>
    have htried := h.tried n (hitems item mem_cons_self)
    unfold Node.pushFork
    cases hres : applyInSession rules item.data n with
    | error =>
      rwa [hres] at htried
    | ok u n1 =>
      rw [hres] at htried
      -- the block is given its schedule in the fork database and stored
      have hsto := h.trans (h.scheduled n1 item.addr) (h.stored _ item.data)
      exact h.trans (h.trans htried hsto) (ih (fun i hi => hitems i (mem_cons_of_mem item hi)) _)

lemma Applies.restoreFork : T n (after (restoreFork rules items n)) := by
  induction items generalizing n with
  | nil => exact h.refl n
  | cons item rest ih =>
    have htried := h.tried n (hitems item mem_cons_self)
    unfold Node.restoreFork
    cases hres : applyInSession rules item.data n with
    | error =>
      rwa [hres] at htried
    | ok u n1 =>
      rw [hres] at htried
      exact h.trans (h.trans htried (h.stored n1 item.data))
        (ih (fun i hi => hitems i (mem_cons_of_mem item hi)) _)

omit hitems in
lemma Applies.pushOnHead (now : Nat) (hb : Tried b) (hnew : Local newHead)
    (n : Node H Tx W R Sched) : T n (after (pushOnHead rules now b newHead n)) := by
  have htried := h.tried n hb
  unfold Node.pushOnHead
  cases hres : applyInSession rules b n with
  | error e n1 =>
    rw [hres] at htried
    exact h.trans htried (h.removed n1 b.id hnew)
  | ok u n1 =>
    rw [hres] at htried
    refine h.trans (h.trans htried ?_) (h.stored _ b)
    split_ifs
    · exact h.scheduled n1 newHead.addr
    · exact h.refl n1

end

variable (h : Switches rules Tried Local base T)
include h

lemma Switches.popUntil (locals : List (ForkItem H Tx Sched)) (hloc : ∀ i ∈ locals, Local i)
    (fuel : Nat) (n : Node H Tx W R Sched) : T n (after (popUntil locals base fuel n)) := by
  induction fuel generalizing n with
  | zero =>
    unfold Node.popUntil
    split_ifs with hid
    · exact h.refl n
    · exact h.popped n hloc hid
  | succ fuel ih =>
    unfold Node.popUntil
    split_ifs with hid
    · exact h.refl n
    · have hpop := h.popped n hloc hid
      cases hres : popBlock locals n with
      | error =>
        rwa [hres] at hpop
      | ok u n1 =>
        rw [hres] at hpop
        exact h.trans hpop (ih n1)

variable (hloc : ∀ i ∈ first ++ second, Local i)
include hloc

lemma Switches.switchBack (hsec : ∀ i ∈ second, Tried i.data) (invalid : List (ForkItem H Tx Sched))
    (hfrt : Local front) (e : ChainError) (n : Node H Tx W R Sched) :
    T n (after (switchBack rules first second invalid front base e n)) := by
  have hpop := h.trans (h.dropped n invalid hloc hfrt)
    (h.popUntil _ hloc n.journal.saved.length _)
  unfold Node.switchBack
  cases hres : Node.popUntil (first ++ second) base n.journal.saved.length
      (n.dropInvalid (first ++ second) invalid front) with
  | error =>
    rwa [hres] at hpop
  | ok u n1 =>
    rw [hres] at hpop
    have hrest := h.trans hpop (h.restoreFork _ (fun i hi => hsec i (mem_reverse.1 hi)) n1)
    dsimp only
    cases hres' : Node.restoreFork rules second.reverse n1 with
    | error _ n2 | ok _ n2 =>
      rwa [hres'] at hrest

lemma Switches.switchTo (htried : ∀ i ∈ first ++ second, Tried i.data) (hfrt : Local front)
    (n : Node H Tx W R Sched) : T n (after (switchTo rules first second front base n)) := by
  have hpop := h.popUntil _ hloc n.journal.saved.length n
  unfold Node.switchTo
  cases hres : Node.popUntil (first ++ second) base n.journal.saved.length n with
  | error =>
    rwa [hres] at hpop
  | ok u n1 =>
    rw [hres] at hpop
    have hpush := h.trans hpop (h.pushFork _ (fun i hi =>
      htried i (mem_append_left second (mem_reverse.1 hi))) n1)
    dsimp only
    cases hres' : Node.pushFork rules first.reverse n1 with
    | ok =>
      rwa [hres'] at hpush
    | error e n2 =>
      rw [hres'] at hpush
      exact h.trans hpush (h.switchBack hloc
        (fun i hi => htried i (mem_append_right first hi)) e.2 hfrt e.1 n2)

end Phases

/-- The undo stack moves by steps that stop at `base`, and all fork items stay in the heap. -/
structure Evolves (rules : Rules H Tx TxId W R) (heap : Heap H Tx) (base : BlockId H)
    (n n' : Node H Tx W R Sched) : Prop where
  steps : Relation.ReflTransGen (JournalStep rules base) n.journal n'.journal
  lives : n'.forkDb.LivesIn heap

variable {rules : NodeRules H Tx TxId W R Sched} {heap : Heap H Tx}

lemma Evolves.trans {n1 n2 n3 : Node H Tx W R Sched} (h1 : Evolves rules.toRules heap base n1 n2)
    (h2 : Evolves rules.toRules heap base n2 n3) : Evolves rules.toRules heap base n1 n3 :=
  ⟨h1.steps.trans h2.steps, h2.lives⟩

lemma Evolves.refl (h : n.forkDb.LivesIn heap) : Evolves rules.toRules heap base n n := ⟨.refl, h⟩

lemma Evolves.fork {n' : Node H Tx W R Sched} (hjou : n'.journal = n.journal)
    (h : n'.forkDb.LivesIn heap) : Evolves rules.toRules heap base n n' :=
  ⟨hjou ▸ .refl, h⟩

omit [DecidableEq W] in
lemma sessionForkDb_lives (h : db.LivesIn heap) (s : ChainState H Tx W R) :
    (sessionForkDb rules s db b).LivesIn heap := by
  unfold sessionForkDb
  cases newMaxSize rules s b with
  | none => exact h
  | some size => exact h.setMaxSize size

lemma applyInSession_evolves (h : n.forkDb.LivesIn heap) :
    Evolves rules.toRules heap base n (after (applyInSession rules b n)) := by
  have hfork : (sessionForkDb rules n.state n.forkDb b).LivesIn heap := sessionForkDb_lives h _
  unfold applyInSession
  cases happ : rules.applyBlock n.state b with
  | ok =>
    refine ⟨.single ?_, hfork⟩
    have hstep : JournalStep rules.toRules base n.journal _ :=
      .applied (sessionJournal rules n.journal b).bound happ
    simpa [after, Journal.write] using hstep
  | error =>
    refine ⟨.single ?_, hfork⟩
    have hstep : JournalStep rules.toRules base n.journal _ :=
      .dropped n.journal.bound (sessionJournal rules n.journal b).bound
    simpa [after, state] using hstep

/-- The undo stack is popped once the fork database has been looked at. -/
lemma restore_evolves {forkDb : ForkDatabase H Tx Sched} (popped : List Tx)
    (hne : n.headBlockId ≠ base) (hfork : forkDb.LivesIn heap) :
    Evolves rules.toRules heap base n (after (match n.journal.restore with
      | none => .error ChainError.emptyUndoStack { n with forkDb := forkDb }
      | some j => .ok () { n with journal := j, forkDb := forkDb, poppedTx := popped })) := by
  cases hj : n.journal.restore with
  | none => exact .fork rfl hfork
  | some => exact ⟨.single (.popped hj hne), hfork⟩

lemma popBlock_evolves (h : n.forkDb.LivesIn heap) (hloc : ∀ i ∈ locals, heap.Holds i)
    (hne : n.headBlockId ≠ base) :
    Evolves rules.toRules heap base n (after (popBlock locals n)) := by
  unfold popBlock
  cases hhead : n.forkDb.head with
  | none => exact .refl h
  | some head =>
    by_cases hid : head.id = n.headBlockId
    · simp only [hid, if_true]
      cases hpop : n.forkDb.popBlock locals with
      | error => exact .refl h
      | ok => exact restore_evolves _ hne (h.popBlock hloc hpop)
    · simp only [hid, if_false]
      cases n.forkDb.fetchBlock n.headBlockId with
      | none => exact .refl h
      | some => exact restore_evolves _ hne h

lemma removeAll_lives (h : db.LivesIn heap) (hloc : ∀ i ∈ locals, heap.Holds i)
    (invalid : List (ForkItem H Tx Sched)) :
    (invalid.foldl (fun db i => db.remove locals i.id) db).LivesIn heap := by
  induction invalid generalizing db with
  | nil => exact h
  | cons i invalid ih => exact ih (h.remove hloc i.id)

lemma switches_evolves (Tried : SignedBlock H Tx → Prop) :
    Switches rules Tried heap.Holds base fun n n' =>
      n.forkDb.LivesIn heap → Evolves rules.toRules heap base n n' where
  refl := fun _ h => .refl h
  trans := fun h1 h2 h => (h1 h).trans (h2 (h1 h).lives)
  tried := fun _ _ _ h => applyInSession_evolves h
  scheduled := fun _ _ h => .fork rfl (h.setScheduled _ _)
  stored := fun _ _ h => .fork rfl h
  removed := fun _ _ id hi h => .fork rfl (h.remove (by simpa using hi) id)
  popped := fun _ _ hloc hne h => popBlock_evolves h hloc hne
  dropped := fun _ _ invalid _ hloc hfrt h =>
    .fork rfl ((removeAll_lives h hloc invalid).setHead hfrt)

lemma switchForks_eq (rules : NodeRules H Tx TxId W R Sched) (h : n.forkDb.LivesIn heap)
    (hfet : n.forkDb.fetchBranchFrom newHead.id n.headBlockId = .ok (first, second)) :
    ∃ front, second.head? = some front ∧ switchForks rules newHead n =
        switchTo rules first second front (n.headBlockId.drop second.length) n := by
  have hbr := fetchBranchFrom_ok h hfet
  have hne : second ≠ [] := length_pos_iff.1 hbr.second_pos
  have hlast : second.getLast? = some (second.getLast hne) := getLast?_eq_some_getLast hne
  have hhead : second.head? = some (second.head hne) := head?_eq_some_head hne
  refine ⟨second.head hne, hhead, ?_⟩
  unfold switchForks
  rw [hfet]
  simp only [hhead, hlast]
  rw [(hbr.descends_second.previousId_getLast hlast).1]

lemma switchForks_evolves (h : n.forkDb.LivesIn heap)
    (hbase : ∀ {first second}, n.forkDb.fetchBranchFrom newHead.id n.headBlockId =
      .ok (first, second) → base = n.headBlockId.drop second.length) :
    Evolves rules.toRules heap base n (after (switchForks rules newHead n)) := by
  cases hfet : n.forkDb.fetchBranchFrom newHead.id n.headBlockId with
  | error =>
    unfold switchForks
    rw [hfet]
    exact .refl h
  | ok branches =>
    obtain ⟨first, second⟩ := branches
    have hbr := fetchBranchFrom_ok h hfet
    have hloc : ∀ i ∈ first ++ second, heap.Holds i := fun i hi => h.items i (hbr.owned i hi)
    obtain ⟨front, hfrt, heq⟩ := switchForks_eq rules h hfet
    rw [heq, ← hbase hfet]
    exact (switches_evolves fun _ => True).switchTo hloc (fun _ _ => trivial)
      (hloc _ (mem_append_right _ (mem_of_head? hfrt))) n h

/-- The fork database with a new block, and whether the node has to switch forks to follow it. -/
structure SwitchTried (rules : NodeRules H Tx TxId W R Sched) (n : Node H Tx W R Sched)
    (p : Push H Tx) (newHead : ForkItem H Tx Sched) (db : ForkDatabase H Tx Sched) : Prop where
  checked : n.earlyCheck rules p.now p.block = .ok ()
  pushed : n.forkDb.pushBlock p.block = .ok (newHead, db)
  otherBranch : newHead.previousId ≠ n.headBlockId
  higher : n.headBlockNum < newHead.num

def triesSwitch (n : Node H Tx W R Sched) (b : SignedBlock H Tx) : Bool :=
  match n.forkDb.pushBlock b with
  | .error _ => false
  | .ok (newHead, _) => decide (newHead.previousId ≠ n.headBlockId ∧ n.headBlockNum < newHead.num)

variable {p : Push H Tx}

omit [DecidableEq TxId] [DecidableEq W] in
lemma SwitchTried.triesSwitch_eq (h : SwitchTried rules n p newHead db) :
    n.triesSwitch p.block = true := by
  simp only [triesSwitch, h.pushed]
  exact decide_eq_true ⟨h.otherBranch, h.higher⟩

lemma SwitchTried.pushBlock_eq (h : SwitchTried rules n p newHead db) :
    pushBlock rules p.now p.block n = switchForks rules newHead { n with forkDb := db } := by
  have hoth : newHead.previousId ≠ headBlockId { n with forkDb := db } := h.otherBranch
  have hhig : headBlockNum { n with forkDb := db } < newHead.num := h.higher
  simp only [pushBlock, h.checked, h.pushed, hoth, ne_eq, not_false_eq_true, if_true, hhig]

/-- Everything that `push_block` does to a node, by its four outcomes. -/
lemma pushBlock_cases (rules : NodeRules H Tx TxId W R Sched) (n : Node H Tx W R Sched)
    (p : Push H Tx) : (∃ e, pushBlock rules p.now p.block n = .error e n) ∨
    ∃ newHead db, n.earlyCheck rules p.now p.block = .ok () ∧
      n.forkDb.pushBlock p.block = .ok (newHead, db) ∧
      ((newHead.previousId ≠ n.headBlockId ∧ newHead.num ≤ n.headBlockNum ∧
          pushBlock rules p.now p.block n = .ok false { n with forkDb := db }) ∨
        (SwitchTried rules n p newHead db ∧
          pushBlock rules p.now p.block n = switchForks rules newHead { n with forkDb := db }) ∨
        (newHead.previousId = n.headBlockId ∧ pushBlock rules p.now p.block n =
            pushOnHead rules p.now p.block newHead { n with forkDb := db })) := by
  cases hchk : n.earlyCheck rules p.now p.block with
  | error e => exact .inl ⟨e, by simp [pushBlock, hchk]⟩
  | ok =>
    cases hpush : n.forkDb.pushBlock p.block with
    | error e => exact .inl ⟨e, by simp [pushBlock, hchk, hpush]⟩
    | ok r =>
      obtain ⟨newHead, db⟩ := r
      refine .inr ⟨newHead, db, rfl, rfl, ?_⟩
      by_cases hprev : newHead.previousId = n.headBlockId
      · refine .inr (.inr ⟨hprev, ?_⟩)
        have hprev' : newHead.previousId = headBlockId { n with forkDb := db } := hprev
        simp only [pushBlock, hchk, hpush, hprev', ne_eq, not_true_eq_false, if_false]
      · have hprev' : newHead.previousId ≠ headBlockId { n with forkDb := db } := hprev
        by_cases hnum : n.headBlockNum < newHead.num
        · have htried : SwitchTried rules n p newHead db := ⟨hchk, hpush, hprev, hnum⟩
          exact .inr (.inl ⟨htried, htried.pushBlock_eq⟩)
        · refine .inl ⟨hprev, not_lt.1 hnum, ?_⟩
          have hnum' : ¬ headBlockNum { n with forkDb := db } < newHead.num := hnum
          simp only [pushBlock, hchk, hpush, hprev', ne_eq, not_false_eq_true, if_true, hnum',
            if_false]

/-- What holds of a node after any calls of `push_block`. -/
structure Valid (n : Node H Tx W R Sched) : Prop where
  stacked : Stacked n.state n.journal.saved
  lives : ∃ heap, n.forkDb.LivesIn heap

section

variable (rules : NodeRules H Tx TxId W R Sched)

section

variable (base p) (hbase : ∀ {newHead db first second}, SwitchTried rules n p newHead db →
  db.fetchBranchFrom newHead.id n.headBlockId = .ok (first, second) →
  base = n.headBlockId.drop second.length)
include hbase

/-- A call of `push_block` moves the undo stack by steps that stop at the fork point, whether it returns
or throws. -/
theorem pushBlock_evolves (hlives : n.forkDb.LivesIn heap0) : ∃ heap, heap.Adds p.block heap0 ∧
      Evolves rules.toRules heap base n (after (pushBlock rules p.now p.block n)) := by
  rcases pushBlock_cases rules n p with
    ⟨e, h⟩ | ⟨newHead, db, -, hpush, ⟨-, -, h⟩ | ⟨hswi, h⟩ | ⟨-, h⟩⟩
  · rw [h]
    exact ⟨heap0, fun _ _ hv => .inl hv, .refl hlives⟩
  · obtain ⟨heap, hadds, hdb⟩ := hlives.pushBlock hpush
    rw [h]
    exact ⟨heap, hadds, .fork rfl hdb⟩
  · obtain ⟨heap, hadds, hdb⟩ := hlives.pushBlock hpush
    rw [h]
    have hfork : Evolves rules.toRules heap base n { n with forkDb := db } := .fork rfl hdb
    exact ⟨heap, hadds,
      hfork.trans (switchForks_evolves hdb fun hfet => hbase hswi hfet)⟩
  · obtain ⟨heap, hadds, hdb⟩ := hlives.pushBlock hpush
    rw [h]
    have hfork : Evolves rules.toRules heap base n { n with forkDb := db } := .fork rfl hdb
    obtain ⟨item, -, hpus⟩ := pushBlock_ok hpush
    have hnew : heap.Holds newHead := hdb.items _ (mem_owned.2 (.inr hpus.head))
    exact ⟨heap, hadds, hfork.trans
      ((switches_evolves fun _ => True).pushOnHead p.now trivial hnew _ hdb)⟩

theorem step_evolves (hn : n.Valid) :
    Relation.ReflTransGen (JournalStep rules.toRules base) n.journal (n.step rules p).2.journal ∧
      (n.step rules p).2.Valid := by
  obtain ⟨heap0, hlives⟩ := hn.lives
  obtain ⟨heap, -, hev⟩ := pushBlock_evolves base p rules hbase hlives
  have hnode : (n.step rules p).2 =
      (after (pushBlock rules p.now p.block n)).restorePending p.pending := by
    unfold step
    cases pushBlock rules p.now p.block n <;> rfl
  have hstp : Relation.ReflTransGen (JournalStep rules.toRules base) n.journal
      (n.step rules p).2.journal := by
    rw [hnode]
    exact hev.steps.tail (.dropped p.pending.keep _)
  refine ⟨hstp, hn.stacked.steps hstp, heap, ?_⟩
  rw [hnode]
  exact hev.lives

end

omit [DecidableEq TxId] [DecidableEq W] in
lemma exists_forkPoint :
    ∃ base : BlockId H, ∀ {newHead db first second}, SwitchTried rules n p newHead db →
      db.fetchBranchFrom newHead.id n.headBlockId = .ok (first, second) →
      base = n.headBlockId.drop second.length := by
  classical
  by_cases hswi : ∃ newHead db first second, SwitchTried rules n p newHead db ∧
      db.fetchBranchFrom newHead.id n.headBlockId = .ok (first, second)
  · obtain ⟨newHead, db, first, second, htried, hfet⟩ := hswi
    refine ⟨n.headBlockId.drop second.length, ?_⟩
    intro newHead' db' first' second' htried' hfet'
    have hsame := htried.pushed.symm.trans htried'.pushed
    cases hsame
    rw [hfet] at hfet'
    cases hfet'
    rfl
  · refine ⟨[], ?_⟩
    intro newHead db first second htried hfet
    exact absurd ⟨newHead, db, first, second, htried, hfet⟩ hswi

theorem step_valid (hn : n.Valid) : (n.step rules p).2.Valid := by
  obtain ⟨base, hbase⟩ := exists_forkPoint rules
  exact (step_evolves base p rules hbase hn).2

lemma pushBlock_lives (hlives : n.forkDb.LivesIn heap0) (now : Nat) :
    ∃ heap, heap.Adds b heap0 ∧ (after (pushBlock rules now b n)).forkDb.LivesIn heap := by
  obtain ⟨base, hbase⟩ := exists_forkPoint rules
  obtain ⟨heap, hadds, hev⟩ := pushBlock_evolves base ⟨now, b, ⟨0, 0⟩⟩ rules hbase hlives
  exact ⟨heap, hadds, hev.lives⟩

end

omit [DecidableEq H] [DecidableEq W] in
lemma initial_valid {genesis : ChainState H Tx W R} (h : genesis.IsGenesis) :
    (initial genesis : Node H Tx W R Sched).Valid := by
  refine ⟨?_, fun _ => none, ?_, ?_, fun a _ => rfl⟩
  · change genesis.headBlockNumber = genesis.headBlockId.length
    rw [h.headBlockNumber, h.headBlockId]
    rfl
  · intro a p b hab
    cases hab
  · intro i hi
    simp [initial, owned] at hi

end Node

end Graphene.Chain
