import Graphene.Chain.ForkDatabase

/-!
# Links between fork items

A weak pointer names an address.  The heap says which item each address was given
to; it only grows, and every item that the index, the head or a local variable owns
agrees with it.  In the heap a link leads to the block named by `previous`, so the
branches that `fetch_branch_from` returns follow the block ids.
-/

namespace Graphene.Chain

open Lib List Function

/-- For every address in use, the link and the block of its item. -/
abbrev Heap (H Tx : Type) := Nat → Option (Option Nat × SignedBlock H Tx)

namespace Heap

variable {H Tx Sched : Type}

def Linked (heap : Heap H Tx) : Prop :=
  ∀ ⦃a p b⦄, heap a = some (some p, b) → ∃ q c, heap p = some (q, c) ∧ c.id = b.previous

def Holds (heap : Heap H Tx) (i : ForkItem H Tx Sched) : Prop :=
  heap i.addr = some (i.prev, i.data)

def Adds (heap' : Heap H Tx) (b : SignedBlock H Tx) (heap : Heap H Tx) : Prop :=
  ∀ ⦃a v⦄, heap' a = some v → heap a = some v ∨ v.2 = b

lemma Linked.previousId {heap : Heap H Tx} (hl : heap.Linked) {i j : ForkItem H Tx Sched}
    (hi : heap.Holds i) (hj : heap.Holds j) (hprev : i.prev = some j.addr) :
    j.id = i.previousId := by
  have hat : heap i.addr = some (some j.addr, i.data) := by rw [← hprev]; exact hi
  obtain ⟨q, c, hc, hid⟩ := hl hat
  have hjc : some (j.prev, j.data) = some (q, c) := hj.symm.trans hc
  cases hjc
  exact hid

end Heap

namespace ForkDatabase

variable {H Tx Sched : Type} [DecidableEq H]

def owned (db : ForkDatabase H Tx Sched) : List (ForkItem H Tx Sched) :=
  db.index ++ db.head.toList

/-- The items of the fork database are those of the heap. -/
structure LivesIn (db : ForkDatabase H Tx Sched) (heap : Heap H Tx) : Prop where
  linked : heap.Linked
  items : ∀ i ∈ db.owned, heap.Holds i
  fresh : ∀ a, db.nextAddr ≤ a → heap a = none

variable {db : ForkDatabase H Tx Sched} {i : ForkItem H Tx Sched} {db' : ForkDatabase H Tx Sched}
    {heap : Heap H Tx} {id : BlockId H} {locals branch : List (ForkItem H Tx Sched)}
    {item : ForkItem H Tx Sched}

section

omit [DecidableEq H]

lemma mem_owned : i ∈ db.owned ↔ i ∈ db.index ∨ db.head = some i := by
  simp [owned, Option.mem_toList]

lemma LivesIn.of_owned (h : db.LivesIn heap) (hnext : db'.nextAddr = db.nextAddr)
    (howned : ∀ i ∈ db'.owned, heap.Holds i) : db'.LivesIn heap :=
  ⟨h.linked, howned, by rw [hnext]; exact h.fresh⟩

end

lemma fetchBlock_eq_some (h : db.fetchBlock id = some i) : i ∈ db.index ∧ i.id = id := by
  refine ⟨mem_of_find?_eq_some h, ?_⟩
  simpa using find?_some h

lemma fetchBlock_isSome (h : i ∈ db.index) : ∃ j, db.fetchBlock i.id = some j := by
  rw [← Option.isSome_iff_exists, fetchBlock, find?_isSome]
  exact ⟨i, h, by simp⟩

lemma find?_key_eq {α β : Type} [DecidableEq β] {f : α → β} {l : List α} (hl : (l.map f).Nodup)
    {x : α} (hx : x ∈ l) : (l.find? fun y => decide (f y = f x)) = some x := by
  cases hfind : l.find? fun y => decide (f y = f x) with
  | none =>
    have hno := find?_eq_none.1 hfind x hx
    simp at hno
  | some y =>
    have hmem := mem_of_find?_eq_some hfind
    have hkey : f y = f x := by simpa using find?_some hfind
    rw [inj_on_of_nodup_map hl hmem hx hkey]

section

omit [DecidableEq H]

lemma lock_eq_some {a : Nat} (h : db.lock locals a = some i) :
    (i ∈ db.owned ∨ i ∈ locals) ∧ i.addr = a := by
  refine ⟨?_, by simpa using find?_some h⟩
  simpa [owned, or_assoc] using mem_of_find?_eq_some h

lemma lockPrev_eq_some {j : ForkItem H Tx Sched} (h : db.lockPrev locals i = some j) :
    (j ∈ db.owned ∨ j ∈ locals) ∧ i.prev = some j.addr := by
  simp only [lockPrev, Option.bind_eq_some_iff] at h
  obtain ⟨a, ha, hlock⟩ := h
  obtain ⟨hmem, rfl⟩ := lock_eq_some hlock
  exact ⟨hmem, ha⟩

end

/-! ## Branches -/

/-- The items are those of the block `id` and of its ancestors, one after the other. -/
def Descends : BlockId H → List (ForkItem H Tx Sched) → Prop
  | _, [] => True
  | id, i :: branch => i.id = id ∧ Descends i.previousId branch

omit [DecidableEq H] in
lemma Descends.append {xs ys : List (ForkItem H Tx Sched)} (hxs : Descends id xs)
    (hys : Descends (id.drop xs.length) ys) : Descends id (xs ++ ys) := by
  induction xs generalizing id with
  | nil => simpa using hys
  | cons x xs ih =>
    obtain ⟨rfl, hxs⟩ := hxs
    exact ⟨rfl, ih hxs (by simpa [ForkItem.id, SignedBlock.id, ForkItem.previousId] using hys)⟩

section

variable (h : Descends id branch)
include h

omit [DecidableEq H]

lemma Descends.id_getElem {k : Nat} (hi : branch[k]? = some i) : i.id = id.drop k := by
  induction branch generalizing id k with
  | nil => simp at hi
  | cons x xs ih =>
    obtain ⟨rfl, hxs⟩ := h
    cases k with
    | zero =>
      simp only [getElem?_cons_zero, Option.some.injEq] at hi
      rw [← hi, drop_zero]
    | succ => simpa [ForkItem.id, SignedBlock.id, ForkItem.previousId] using ih hxs hi

lemma Descends.previousId_getLast (hi : branch.getLast? = some i) :
    i.previousId = id.drop branch.length ∧ branch.length ≤ id.length := by
  rw [getLast?_eq_getElem?] at hi
  have hid := h.id_getElem hi
  have hpos : 0 < branch.length := by
    rw [length_pos_iff]
    rintro rfl
    simp at hi
  have hne : id.drop (branch.length - 1) ≠ [] := by
    rw [← hid]
    exact cons_ne_nil _ _
  have hlt : branch.length - 1 < id.length := by
    by_contra hge
    exact hne (drop_eq_nil_of_le (by omega))
  refine ⟨?_, by omega⟩
  calc i.previousId = i.id.tail := rfl
    _ = (id.drop (branch.length - 1)).tail := by rw [hid]
    _ = id.drop branch.length := by rw [tail_drop]; congr 1; omega

lemma Descends.id_eq : id = (branch.map fun i => i.data.header) ++ id.drop branch.length := by
  induction branch generalizing id with
  | nil => simp
  | cons i branch ih =>
    obtain ⟨rfl, hbranch⟩ := h
    have hrec := ih hbranch
    calc i.id = i.data.header :: i.previousId := rfl
      _ = i.data.header :: ((branch.map fun i => i.data.header) ++
            i.previousId.drop branch.length) := by rw [← hrec]
      _ = _ := rfl

end

omit [DecidableEq H] in
lemma descend_spec (hlive : db.LivesIn heap) {target fuel : Nat} {last : ForkItem H Tx Sched}
    (hitem : item ∈ db.owned) (h : db.descend target fuel item = .ok (branch, last)) :
    Descends item.id branch ∧ last.id = item.id.drop branch.length ∧ last ∈ db.owned ∧
      ∀ i ∈ branch, i ∈ db.owned := by
  induction fuel generalizing item branch with
  | zero =>
    simp only [descend] at h
    split_ifs at h
    cases h
    exact ⟨trivial, rfl, hitem, by simp⟩
  | succ fuel ih =>
    simp only [descend] at h
    split_ifs at h
    · cases hprev : db.lockPrev [] item with
      | none => simp [hprev] at h
      | some prev =>
        simp only [hprev, bind_eq_ok] at h
        obtain ⟨⟨rest, last'⟩, hrest, h⟩ := h
        cases h
        obtain ⟨hmem, hlink⟩ := lockPrev_eq_some hprev
        have howned : prev ∈ db.owned := by simpa using hmem
        have hid : prev.id = item.previousId :=
          hlive.linked.previousId (hlive.items _ hitem) (hlive.items _ howned) hlink
        obtain ⟨hdesc, hlast, hme, hall⟩ := ih howned hrest
        refine ⟨⟨rfl, hid ▸ hdesc⟩, ?_, hme, ?_⟩
        · rw [hlast, hid]
          rfl
        · simpa [hitem] using hall
    · cases h
      exact ⟨trivial, rfl, hitem, by simp⟩

lemma descendBoth_spec (hlive : db.LivesIn heap) {fuel : Nat} {a b : ForkItem H Tx Sched}
    {as bs : List (ForkItem H Tx Sched)} (ha : a ∈ db.owned) (hb : b ∈ db.owned)
    (h : db.descendBoth fuel a b = .ok (as, bs)) : Descends a.id as ∧ Descends b.id bs ∧
      (∀ i ∈ as ++ bs, i ∈ db.owned) ∧
      ∃ x y, as.getLast? = some x ∧ bs.getLast? = some y ∧ x.previousId = y.previousId := by
  induction fuel generalizing a b as bs with
  | zero =>
    simp only [descendBoth] at h
    split_ifs at h with heq
    cases h
    exact ⟨⟨rfl, trivial⟩, ⟨rfl, trivial⟩, by simp [ha, hb], a, b, rfl, rfl, heq⟩
  | succ fuel ih =>
    simp only [descendBoth] at h
    split_ifs at h with heq
    · cases h
      exact ⟨⟨rfl, trivial⟩, ⟨rfl, trivial⟩, by simp [ha, hb], a, b, rfl, rfl, heq⟩
    · cases hpa : db.lockPrev [] a with
      | none => simp [hpa] at h
      | some a' =>
        cases hpb : db.lockPrev [] b with
        | none => simp [hpa, hpb] at h
        | some b' =>
          simp only [hpa, hpb, bind_eq_ok] at h
          obtain ⟨⟨as', bs'⟩, hrest, h⟩ := h
          cases h
          obtain ⟨hmema, hlinka⟩ := lockPrev_eq_some hpa
          obtain ⟨hmemb, hlinkb⟩ := lockPrev_eq_some hpb
          have ha' : a' ∈ db.owned := by simpa using hmema
          have hb' : b' ∈ db.owned := by simpa using hmemb
          have hida : a'.id = a.previousId :=
            hlive.linked.previousId (hlive.items _ ha) (hlive.items _ ha') hlinka
          have hidb : b'.id = b.previousId :=
            hlive.linked.previousId (hlive.items _ hb) (hlive.items _ hb') hlinkb
          obtain ⟨hdas, hdbs, hall, x, y, hx, hy, hxy⟩ := ih ha' hb' hrest
          refine ⟨⟨rfl, hida ▸ hdas⟩, ⟨rfl, hidb ▸ hdbs⟩, ?_, x, y, ?_, ?_, hxy⟩
          · intro i hi
            simp only [cons_append, mem_cons, mem_append] at hi hall
            rcases hi with rfl | hi | rfl | hi
            · exact ha
            · exact hall i (.inl hi)
            · exact hb
            · exact hall i (.inr hi)
          · rw [getLast?_cons, hx]
            rfl
          · rw [getLast?_cons, hy]
            rfl

/-- The branches lead from the two blocks down to a common ancestor, which is the block below both. -/
structure Branches (db : ForkDatabase H Tx Sched) (a b : BlockId H)
    (first second : List (ForkItem H Tx Sched)) : Prop where
  descends_first : Descends a first
  descends_second : Descends b second
  owned : ∀ i ∈ first ++ second, i ∈ db.owned
  second_pos : 0 < second.length
  first_le : first.length ≤ a.length
  second_le : second.length ≤ b.length
  meet : a.drop first.length = b.drop second.length

lemma fetchBranchFrom_ok (hlive : db.LivesIn heap) {a b : BlockId H}
    {first second : List (ForkItem H Tx Sched)} (h : db.fetchBranchFrom a b = .ok (first, second)) :
    Branches db a b first second := by
  unfold fetchBranchFrom at h
  cases hfa : db.fetchBlock a with
  | none => simp [hfa] at h
  | some x =>
    cases hfb : db.fetchBlock b with
    | none => simp [hfa, hfb] at h
    | some y =>
      simp only [hfa, hfb, bind_eq_ok] at h
      obtain ⟨⟨top, x'⟩, htop, ⟨top', y'⟩, htop', ⟨rest, rest'⟩, hrest, h⟩ := h
      cases h
      obtain ⟨hx, rfl⟩ := fetchBlock_eq_some hfa
      obtain ⟨hy, rfl⟩ := fetchBlock_eq_some hfb
      obtain ⟨hd, hid, hx', hall⟩ := descend_spec hlive (mem_owned.2 (.inl hx)) htop
      obtain ⟨hd', hid', hy', hall'⟩ := descend_spec hlive (mem_owned.2 (.inl hy)) htop'
      obtain ⟨hr, hr', hallr, u, v, hu, hv, huv⟩ := descendBoth_spec hlive hx' hy' hrest
      have hfst : Descends x.id (top ++ rest) := hd.append (hid ▸ hr)
      have hsec : Descends y.id (top' ++ rest') := hd'.append (hid' ▸ hr')
      have hlast : (top ++ rest).getLast? = some u := by
        simp [getLast?_append, hu]
      have hlast' : (top' ++ rest').getLast? = some v := by
        simp [getLast?_append, hv]
      obtain ⟨hpu, hle⟩ := hfst.previousId_getLast hlast
      obtain ⟨hpv, hle'⟩ := hsec.previousId_getLast hlast'
      refine ⟨hfst, hsec, ?_, ?_, hle, hle', by rw [← hpu, ← hpv, huv]⟩
      · intro i hi
        simp only [mem_append] at hi hallr
        rcases hi with (hi | hi) | hi | hi
        · exact hall i hi
        · exact hallr i (.inl hi)
        · exact hall' i hi
        · exact hallr i (.inr hi)
      · exact length_pos_iff.2 (by rintro h; simp [h] at hlast')

section

variable (h : db.LivesIn heap)
include h

section

omit [DecidableEq H]

lemma LivesIn.setMaxSize (s : Nat) : (db.setMaxSize s).LivesIn heap := by
  refine h.of_owned ?_ ?_
  · unfold ForkDatabase.setMaxSize
    cases db.head <;> rfl
  · intro i hi
    apply h.items
    rw [mem_owned] at hi ⊢
    unfold ForkDatabase.setMaxSize eraseBelow at hi
    cases hhead : db.head with
    | none => simpa [hhead] using hi
    | some =>
      simp only [hhead, mem_filter] at hi
      rcases hi with hi | hi
      · exact .inl hi.1
      · exact .inr hi

lemma LivesIn.setScheduled (addr : Nat) (sched : Sched) :
    (db.setScheduled addr sched).LivesIn heap := by
  refine h.of_owned rfl ?_
  intro i hi
  rw [mem_owned] at hi
  simp only [ForkDatabase.setScheduled, mem_map, Option.map_eq_some_iff] at hi
  have key : ∀ j, j ∈ db.owned →
      heap.Holds (if j.addr = addr then { j with scheduled := some sched } else j) := by
    intro j hj
    split_ifs <;> exact h.items j hj
  rcases hi with ⟨j, hj, rfl⟩ | ⟨j, hj, rfl⟩
  · exact key j (mem_owned.2 (.inl hj))
  · exact key j (mem_owned.2 (.inr hj))

lemma LivesIn.setHead (hi : heap.Holds i) : (db.setHead i).LivesIn heap := by
  refine h.of_owned rfl ?_
  intro j hj
  rw [mem_owned] at hj
  simp only [ForkDatabase.setHead, Option.some.injEq] at hj
  rcases hj with hj | rfl
  · exact h.items j (mem_owned.2 (.inl hj))
  · exact hi

end

variable (hloc : ∀ i ∈ locals, heap.Holds i)
include hloc

omit [DecidableEq H] in
lemma LivesIn.popBlock (hpop : db.popBlock locals = .ok db') : db'.LivesIn heap := by
  unfold ForkDatabase.popBlock at hpop
  cases hhead : db.head with
  | none => simp [hhead] at hpop
  | some head =>
    cases hprev : db.lockPrev locals head with
    | none => simp [hhead, hprev] at hpop
    | some =>
      simp only [hhead, hprev] at hpop
      cases hpop
      apply h.setHead
      rcases (lockPrev_eq_some hprev).1 with hmem | hmem
      · exact h.items _ hmem
      · exact hloc _ hmem

lemma LivesIn.remove (id : BlockId H) : (db.remove locals id).LivesIn heap := by
  have hfil : ForkDatabase.LivesIn
      { db with index := db.index.filter fun i => decide (i.id ≠ id) } heap := by
    refine h.of_owned rfl ?_
    intro i hi
    rw [mem_owned] at hi
    apply h.items
    rw [mem_owned]
    rcases hi with hi | hi
    · exact .inl (mem_of_mem_filter hi)
    · exact .inr hi
  have hnone : ∀ {d : ForkDatabase H Tx Sched}, d.LivesIn heap →
      ForkDatabase.LivesIn { d with head := none } heap := by
    intro d hd
    refine hd.of_owned rfl ?_
    intro i hi
    rw [mem_owned] at hi
    rcases hi with hi | hi
    · exact hd.items i (mem_owned.2 (.inl hi))
    · cases hi
  unfold ForkDatabase.remove
  cases hhead : db.head with
  | none => simpa [hhead] using hfil
  | some =>
    simp only [hhead] at hfil ⊢
    split_ifs
    · split
      · rename_i db' hpop
        exact hfil.popBlock hloc hpop
      · exact hnone hfil
    · exact hfil

end

/-! ## Pushing a block -/

structure IsNewItem (db : ForkDatabase H Tx Sched) (b : SignedBlock H Tx)
    (item : ForkItem H Tx Sched) : Prop where
  addr : item.addr = db.nextAddr
  data : item.data = b
  scheduled : item.scheduled = none
  link : (item.prev = none ∧ (db.head = none ∨ b.previous = [])) ∨
    ∃ p, db.fetchBlock b.previous = some p ∧ item.prev = some p.addr

/-- What `push_block` does: the item is inserted and becomes the head when it is higher than the old
one; only then are old items erased. -/
structure BlockPushed (db : ForkDatabase H Tx Sched) (item newHead : ForkItem H Tx Sched)
    (db' : ForkDatabase H Tx Sched) : Prop where
  head : db'.head = some newHead
  nextAddr : db'.nextAddr = db.nextAddr + 1
  maxSize : db'.maxSize = db.maxSize
  index : (newHead = item ∧ (∀ h, db.head = some h → h.num < item.num) ∧
      ∃ low ≤ item.num - db.maxSize, db'.index = eraseBelow low (insertItem item db.index)) ∨
    (db.head = some newHead ∧ item.num ≤ newHead.num ∧ db'.index = insertItem item db.index)

variable {newHead : ForkItem H Tx Sched}

variable {b : SignedBlock H Tx}

lemma pushBlock_ok (h : db.pushBlock b = .ok (newHead, db')) :
    ∃ item, IsNewItem db b item ∧ BlockPushed db item newHead db' := by
  unfold pushBlock at h
  cases hhead : db.head with
  | none =>
    simp only [hhead] at h
    cases h
    exact ⟨_, ⟨rfl, rfl, rfl, .inl ⟨rfl, .inl hhead⟩⟩, rfl, rfl, rfl,
      .inl ⟨rfl, by simp [hhead], 0, Nat.zero_le _, by simp [eraseBelow]⟩⟩
  | some head =>
    simp only [hhead] at h
    split_ifs at h
    simp only [bind_eq_ok] at h
    obtain ⟨prev, hprev, h⟩ := h
    have hlink : (prev = none ∧ (db.head = none ∨ b.previous = [])) ∨
        ∃ p, db.fetchBlock b.previous = some p ∧ prev = some p.addr := by
      unfold linkPrevious at hprev
      split_ifs at hprev with hnull
      · cases hprev
        exact .inl ⟨rfl, .inr hnull⟩
      · cases hp : db.fetchBlock b.previous with
        | none => simp [hp] at hprev
        | some p =>
          simp only [hp] at hprev
          cases hprev
          exact .inr ⟨p, rfl, rfl⟩
    split_ifs at h with hlt
    · cases h
      refine ⟨_, ⟨rfl, rfl, rfl, hlink⟩, rfl, rfl, rfl, .inl ⟨rfl, ?_, _, le_rfl, rfl⟩⟩
      intro h' hh'
      rw [hhead] at hh'
      cases hh'
      exact hlt
    · cases h
      exact ⟨_, ⟨rfl, rfl, rfl, hlink⟩, rfl, rfl, rfl, .inr ⟨hhead, not_lt.1 hlt, rfl⟩⟩

lemma mem_insertItem {index : List (ForkItem H Tx Sched)} (h : i ∈ insertItem item index) :
    i = item ∨ i ∈ index := by
  unfold insertItem at h
  split_ifs at h
  · exact .inr h
  · exact mem_cons.1 h

lemma BlockPushed.owned (h : BlockPushed db item newHead db') (hi : i ∈ db'.owned) :
    i = item ∨ i ∈ db.owned := by
  rw [mem_owned, h.head] at hi
  rw [mem_owned]
  rcases h.index with ⟨rfl, -, low, -, hidx⟩ | ⟨hhead, -, hidx⟩
  · rcases hi with hi | hi
    · rw [hidx] at hi
      rcases mem_insertItem (mem_of_mem_filter hi) with rfl | hi
      · exact .inl rfl
      · exact .inr (.inl hi)
    · cases hi
      exact .inl rfl
  · rcases hi with hi | hi
    · rw [hidx] at hi
      rcases mem_insertItem hi with rfl | hi
      · exact .inl rfl
      · exact .inr (.inl hi)
    · exact .inr (.inr (hhead.trans hi))

lemma LivesIn.pushBlock (hlive : db.LivesIn heap)
    (h : db.pushBlock b = .ok (newHead, db')) : ∃ heap', heap'.Adds b heap ∧ db'.LivesIn heap' := by
  obtain ⟨item, hitem, hpush⟩ := pushBlock_ok h
  have hnone : heap db.nextAddr = none := hlive.fresh _ le_rfl
  have hold : ∀ {a v}, heap a = some v →
      update heap db.nextAddr (some (item.prev, item.data)) a = some v := by
    intro a v ha
    have hne : a ≠ db.nextAddr := by
      rintro rfl
      rw [hnone] at ha
      cases ha
    rw [update_of_ne hne, ha]
  refine ⟨update heap db.nextAddr (some (item.prev, item.data)), ?_, ?_, ?_, ?_⟩
  · intro a v hav
    by_cases ha : a = db.nextAddr
    · rw [ha, update_self, Option.some.injEq] at hav
      rw [← hav]
      exact .inr hitem.data
    · rw [update_of_ne ha] at hav
      exact .inl hav
  · intro a p c hac
    by_cases ha : a = db.nextAddr
    · -- the new item: its link was looked up in the index
      rw [ha, update_self] at hac
      simp only [Option.some.injEq, Prod.mk.injEq] at hac
      obtain ⟨hprev, rfl⟩ := hac
      rcases hitem.link with ⟨hnil, -⟩ | ⟨q, hq, hlink⟩
      · rw [hnil] at hprev
        cases hprev
      · rw [hlink] at hprev
        cases hprev
        obtain ⟨hmem, hid⟩ := fetchBlock_eq_some hq
        have hheld := hlive.items q (mem_owned.2 (.inl hmem))
        exact ⟨q.prev, q.data, hold hheld, by rw [hitem.data]; exact hid⟩
    · rw [update_of_ne ha] at hac
      obtain ⟨q, d, hd, hid⟩ := hlive.linked hac
      exact ⟨q, d, hold hd, hid⟩
  · intro i hi
    rcases hpush.owned hi with rfl | hi
    · rw [Heap.Holds, hitem.addr, update_self]
    · exact hold (hlive.items i hi)
  · intro a ha
    rw [hpush.nextAddr] at ha
    rw [update_of_ne (by omega)]
    exact hlive.fresh a (by omega)

end ForkDatabase

end Graphene.Chain
