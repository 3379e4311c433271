import Graphene.Chain.ForkLinks

/-!
# The window of the fork database

The fork database keeps the blocks whose number is within `maxSize` of its head.
`Keeps` says which items survive a series of changes, and `AtHead` is the state in
which a node should find its fork database: the head is the chain's head block, and
nothing in the index is higher.
-/

namespace Graphene.Chain

open Lib List ForkItem

namespace ForkDatabase

variable {H Tx Sched : Type} [DecidableEq H]

/-! ## What survives -/

/-- Between the two, only items numbered below `low` were erased, and only the schedules of the
items at the addresses `written` have changed. -/
structure Keeps (low : Nat) (written : List Nat) (db db' : ForkDatabase H Tx Sched) : Prop where
  head : db'.head.map ForkItem.num = db.head.map ForkItem.num
  old : ∀ i ∈ db'.index, ∃ j ∈ db.index, j.id = i.id
  ids : ∀ j ∈ db.index, low ≤ j.num → ∃ i ∈ db'.index, i.id = j.id
  items : ∀ j ∈ db.index, low ≤ j.num → j.addr ∉ written → j ∈ db'.index

variable (low : Nat) (written : List Nat)

omit [DecidableEq H] in
lemma Keeps.refl (db : ForkDatabase H Tx Sched) : Keeps low written db db :=
  ⟨rfl, fun i hi => ⟨i, hi, rfl⟩, fun j hj _ => ⟨j, hj, rfl⟩, fun _ hj _ _ => hj⟩

variable {i j : ForkItem H Tx Sched} {size : Nat}

omit [DecidableEq H] in
lemma num_eq_of_id (h : i.id = j.id) : i.num = j.num := by
  have hlen : numFromId i.id = numFromId j.id := congrArg numFromId h
  simpa [ForkItem.id, ForkItem.num] using hlen

variable {low : Nat} {written : List Nat}

section

omit [DecidableEq H]

lemma Keeps.trans {db1 db2 db3 : ForkDatabase H Tx Sched} (h1 : Keeps low written db1 db2)
    (h2 : Keeps low written db2 db3) : Keeps low written db1 db3 := by
  refine ⟨h2.head.trans h1.head, ?_, ?_, ?_⟩
  · intro i hi
    obtain ⟨j, hj, hji⟩ := h2.old i hi
    obtain ⟨k, hk, hkj⟩ := h1.old j hj
    exact ⟨k, hk, hkj.trans hji⟩
  · intro j hj hlow
    obtain ⟨i, hi, hij⟩ := h1.ids j hj hlow
    obtain ⟨k, hk, hki⟩ := h2.ids i hi (by rwa [num_eq_of_id hij])
    exact ⟨k, hk, hki.trans hij⟩
  · intro j hj hlow hwritten
    exact h2.items j (h1.items j hj hlow hwritten) hlow hwritten

lemma keeps_setMaxSize {top : Nat} {db : ForkDatabase H Tx Sched}
    (htop : db.head.map num = some top) (hsize : top ≤ low + size) :
    Keeps low written db (db.setMaxSize size) := by
  obtain ⟨head, hhead, rfl⟩ := Option.map_eq_some_iff.1 htop
  have hkeep : ∀ j ∈ db.index, low ≤ j.num → j ∈ (db.setMaxSize size).index := by
    intro j hj hlow
    simp only [setMaxSize, hhead, eraseBelow, mem_filter, decide_eq_true_eq]
    exact ⟨hj, by omega⟩
  refine ⟨?_, ?_, fun j hj hlow => ⟨j, hkeep j hj hlow, rfl⟩, fun j hj hlow _ => hkeep j hj hlow⟩
  · simp [setMaxSize, hhead]
  · intro i hi
    simp only [setMaxSize, hhead] at hi
    exact ⟨i, mem_of_mem_filter hi, rfl⟩

lemma id_scheduled (addr : Nat) (sched : Sched) (i : ForkItem H Tx Sched) :
    (if i.addr = addr then { i with scheduled := some sched } else i).id = i.id := by
  split_ifs <;> rfl

lemma keeps_setScheduled {addr : Nat} (db : ForkDatabase H Tx Sched) (sched : Sched)
    (h : addr ∈ written) : Keeps low written db (db.setScheduled addr sched) := by
  have hid (i : ForkItem H Tx Sched) := id_scheduled addr sched i
  refine ⟨?_, ?_, ?_, ?_⟩
  · cases hhead : db.head with
    | none => simp [setScheduled, hhead]
    | some head =>
      simp only [setScheduled, hhead, Option.map_some, Option.some.injEq]
      exact num_eq_of_id (hid head)
  · intro i hi
    simp only [setScheduled, mem_map] at hi
    obtain ⟨j, hj, rfl⟩ := hi
    exact ⟨j, hj, (hid j).symm⟩
  · intro j hj _
    exact ⟨_, mem_map_of_mem hj, hid j⟩
  · intro j hj _ hwritten
    have hne : j.addr ≠ addr := by
      rintro rfl
      exact hwritten h
    simp only [setScheduled, mem_map]
    exact ⟨j, hj, by rw [if_neg hne]⟩

end

lemma remove_eq (db : ForkDatabase H Tx Sched) (locals : List (ForkItem H Tx Sched))
    (id : BlockId H) : ∃ head, db.remove locals id =
      { db with index := db.index.filter fun i => decide (i.id ≠ id), head := head } := by
  unfold remove popBlock
  cases db.head with
  | none => exact ⟨none, rfl⟩
  | some head =>
    simp only
    split_ifs
    · cases lockPrev _ locals head with
      | none => exact ⟨none, rfl⟩
      | some prev => exact ⟨some prev, rfl⟩
    · exact ⟨some head, rfl⟩

lemma removeAll_eq (db : ForkDatabase H Tx Sched) (locals invalid : List (ForkItem H Tx Sched)) :
    ∃ head, invalid.foldl (fun db i => db.remove locals i.id) db = { db with
        index := db.index.filter fun i => decide (i.id ∉ invalid.map ForkItem.id)
        head := head } := by
  induction invalid generalizing db with
  | nil => exact ⟨db.head, by simp⟩
  | cons i invalid ih =>
    obtain ⟨head, hone⟩ := remove_eq db locals i.id
    rw [foldl_cons, hone]
    rcases ih { db with index := db.index.filter fun j => decide (j.id ≠ i.id), head := head } with
      ⟨head', hrest⟩
    refine ⟨head', ?_⟩
    rw [hrest]
    simp only [filter_filter, map_cons, mem_cons, not_or, Bool.decide_and, decide_not, Bool.and_comm]

/-! ## The head -/

/-- The fork database of a node whose head block is `id`. -/
structure AtHead (db : ForkDatabase H Tx Sched) (id : BlockId H) : Prop where
  addrs : (db.index.map ForkItem.addr).Nodup
  ids : (db.index.map ForkItem.id).Nodup
  addr_lt : ∀ i ∈ db.index, i.addr < db.nextAddr
  below : ∀ i ∈ db.index, i.num ≤ id.length
  maxSize_pos : 0 < db.maxSize
  head : (db.head = none ∧ db.index = [] ∧ id = []) ∨
    ∃ h, db.head = some h ∧ h ∈ db.index ∧ h.id = id

variable {head : ForkItem H Tx Sched} {p : ForkItem H Tx Sched → Bool} {item : ForkItem H Tx Sched}

namespace AtHead

variable {db db' : ForkDatabase H Tx Sched} {id : BlockId H}

omit [DecidableEq H] in
lemma rehead {id' : BlockId H} (h : db.AtHead id') {head : Option (ForkItem H Tx Sched)}
    (hbelow : ∀ i ∈ db.index, p i = true → i.num ≤ id.length)
    (hhead : (head = none ∧ db.index.filter p = [] ∧ id = []) ∨
      ∃ i, head = some i ∧ i ∈ db.index ∧ p i = true ∧ i.id = id) (hsize : 0 < size) :
    AtHead { db with index := db.index.filter p, head := head, maxSize := size } id where
  addrs := h.addrs.sublist ((filter_sublist).map _)
  ids := h.ids.sublist ((filter_sublist).map _)
  addr_lt := fun i hi => h.addr_lt i (mem_of_mem_filter hi)
  below := fun i hi => hbelow i (mem_of_mem_filter hi) (mem_filter.1 hi).2
  maxSize_pos := hsize
  head := by
    rcases hhead with hnone | ⟨i, hi, hmem, hp, hid⟩
    · exact .inl hnone
    · exact .inr ⟨i, hi, mem_filter.2 ⟨hmem, hp⟩, hid⟩

section

variable (h : db.AtHead id)
include h

section

omit [DecidableEq H]

lemma eq_of_id (hi : i ∈ db.index) (hj : j ∈ db.index) (hid : i.id = j.id) : i = j :=
  inj_on_of_nodup_map h.ids hi hj hid

lemma num_head (hhead : db.head = some head) :
    head ∈ db.index ∧ head.id = id ∧ head.num = id.length := by
  rcases h.head with ⟨hnone, -, -⟩ | ⟨h', hh', hmem, hid⟩
  · rw [hhead] at hnone
    cases hnone
  · rw [hhead] at hh'
    cases hh'
    exact ⟨hmem, hid, by rw [← hid]; rfl⟩

lemma filter (hp : ∀ i, db.head = some i → p i = true) (hsize : 0 < size) :
    AtHead { db with index := db.index.filter p, maxSize := size } id := by
  refine h.rehead (fun i hi _ => h.below i hi) ?_ hsize
  rcases h.head with ⟨hnone, hnil, hid⟩ | ⟨head, hhead, hmem, hid⟩
  · exact .inl ⟨hnone, by simp [hnil], hid⟩
  · exact .inr ⟨head, hhead, hmem, hp head hhead, hid⟩

lemma setMaxSize (hsize : 0 < size) : (db.setMaxSize size).AtHead id := by
  unfold ForkDatabase.setMaxSize
  cases hhead : db.head with
  | none =>
    have hall := h.filter (p := fun _ => true) (by simp) hsize
    simpa [hhead] using hall
  | some head =>
    have hkept : ∀ i, db.head = some i → decide (head.num - size ≤ i.num) = true := by
      intro i hi
      rw [hhead] at hi
      cases hi
      simp
    have hfil := h.filter hkept hsize
    simpa [hhead, eraseBelow] using hfil

lemma setScheduled (addr : Nat) (sched : Sched) : (db.setScheduled addr sched).AtHead id := by
  have haddr : ∀ i : ForkItem H Tx Sched,
      (if i.addr = addr then { i with scheduled := some sched } else i).addr = i.addr := by
    intro i
    split_ifs <;> rfl
  have hid (i : ForkItem H Tx Sched) := id_scheduled addr sched i
  refine ⟨?_, ?_, ?_, ?_, h.maxSize_pos, ?_⟩
  · simpa [ForkDatabase.setScheduled, Function.comp_def, haddr] using h.addrs
  · simpa [ForkDatabase.setScheduled, Function.comp_def, hid] using h.ids
  · intro i hi
    obtain ⟨j, hj, rfl⟩ := mem_map.1 hi
    rw [haddr]
    exact h.addr_lt j hj
  · intro i hi
    obtain ⟨j, hj, rfl⟩ := mem_map.1 hi
    rw [num_eq_of_id (hid j)]
    exact h.below j hj
  · rcases h.head with ⟨hnone, hnil, hnull⟩ | ⟨head, hhead, hmem, hhei⟩
    · exact .inl ⟨by simp [ForkDatabase.setScheduled, hnone],
        by simp [ForkDatabase.setScheduled, hnil], hnull⟩
    · refine .inr ⟨_, by rw [ForkDatabase.setScheduled, hhead]; rfl, mem_map_of_mem hmem, ?_⟩
      rw [hid, hhei]

end

lemma insertItem_eq (hnum : id.length < item.num) : insertItem item db.index = item :: db.index := by
  have hnew : ¬ db.index.any (fun i => decide (i.id = item.id)) = true := by
    intro hany
    obtain ⟨i, hi, hid⟩ := any_eq_true.1 hany
    have hle := h.below i hi
    rw [num_eq_of_id (of_decide_eq_true hid)] at hle
    omega
  rw [insertItem, if_neg hnew]

end

/-- A push that moves the head of the fork database. -/
structure HeadMoved (db : ForkDatabase H Tx Sched) (id : BlockId H) (item : ForkItem H Tx Sched)
    (db' : ForkDatabase H Tx Sched) : Prop where
  higher : id.length < item.num
  atHead : db'.AtHead item.id
  head : db'.head = some item
  mem : item ∈ db'.index
  old : ∀ i ∈ db'.index, i = item ∨ i ∈ db.index
  kept : ∀ i ∈ db.index, item.num ≤ i.num + 1 → i ∈ db'.index

/-- Pushing a block either moves the head to it or leaves the head alone. -/
theorem pushBlock (h : db.AtHead id) {b : SignedBlock H Tx} {newHead : ForkItem H Tx Sched}
    (hitem : IsNewItem db b item) (hpush : BlockPushed db item newHead db') :
    (newHead = item ∧ HeadMoved db id item db') ∨
      (db.head = some newHead ∧ item.num ≤ newHead.num ∧ db'.AtHead id) := by
  have haddr : item.addr ∉ db.index.map addr := by
    intro hmem
    obtain ⟨i, hi, heq⟩ := mem_map.1 hmem
    have hlt := h.addr_lt i hi
    rw [heq, hitem.addr] at hlt
    exact lt_irrefl _ hlt
  have hcon : ∀ i ∈ item :: db.index, i.addr < db'.nextAddr := by
    intro i hi
    rw [hpush.nextAddr]
    rcases mem_cons.1 hi with rfl | hi
    · rw [hitem.addr]
      exact Nat.lt_succ_self _
    · exact Nat.lt_succ_of_lt (h.addr_lt i hi)
  rcases hpush.index with ⟨rfl, hhig, low, hlow, hidx⟩ | ⟨hhead, hnum, hidx⟩
  · -- the new item is higher than everything in the index
    have hlt : id.length < newHead.num := by
      rcases h.head with ⟨-, -, rfl⟩ | ⟨head, hhead, -, rfl⟩
      · exact Nat.succ_pos _
      · exact hhig head hhead
    rw [h.insertItem_eq hlt] at hidx
    have hpos := h.maxSize_pos
    have hkeep : ∀ i ∈ newHead :: db.index, newHead.num ≤ i.num + 1 → i ∈ db'.index := by
      intro i hi hle
      rw [hidx, eraseBelow, mem_filter, decide_eq_true_eq]
      exact ⟨hi, by omega⟩
    have hmem : newHead ∈ db'.index := hkeep newHead (by simp) (Nat.le_succ _)
    have hold : ∀ i ∈ db'.index, i ∈ newHead :: db.index := by
      intro i hi
      rw [hidx] at hi
      exact mem_of_mem_filter hi
    have hsub : db'.index.Sublist (newHead :: db.index) := by
      rw [hidx]
      exact filter_sublist
    refine .inl ⟨rfl, hlt, ⟨?_, ?_, ?_, ?_, ?_, ?_⟩, hpush.head, hmem, ?_, ?_⟩
    · exact (nodup_cons.2 ⟨haddr, h.addrs⟩ : ((newHead :: db.index).map _).Nodup).sublist
        (hsub.map _)
    · refine (nodup_cons.2 ⟨?_, h.ids⟩ : ((newHead :: db.index).map ForkItem.id).Nodup).sublist
        (hsub.map _)
      intro hdup
      obtain ⟨i, hi, heq⟩ := mem_map.1 hdup
      have hle := h.below i hi
      rw [num_eq_of_id heq] at hle
      omega
    · exact fun i hi => hcon i (hold i hi)
    · intro i hi
      rcases mem_cons.1 (hold i hi) with rfl | hi
      · exact le_rfl
      · exact (h.below i hi).trans hlt.le
    · rwa [hpush.maxSize]
    · exact .inr ⟨newHead, hpush.head, hmem, rfl⟩
    · exact fun i hi => mem_cons.1 (hold i hi)
    · exact fun i hi hle => hkeep i (mem_cons_of_mem _ hi) hle
  · refine .inr ⟨hhead, hnum, ?_⟩
    obtain ⟨hmem, hid, hhen⟩ := h.num_head hhead
    have hcas : db'.index = db.index ∨
        (db'.index = item :: db.index ∧ item.id ∉ db.index.map ForkItem.id) := by
      rw [hidx]
      unfold insertItem
      split_ifs with hany
      · exact .inl rfl
      · refine .inr ⟨rfl, ?_⟩
        intro hdup
        obtain ⟨i, hi, heq⟩ := mem_map.1 hdup
        exact hany (any_eq_true.2 ⟨i, hi, decide_eq_true heq⟩)
    have hsu : ∀ i ∈ db'.index, i ∈ item :: db.index := by
      rcases hcas with heq | ⟨heq, -⟩ <;> rw [heq]
      · exact fun i hi => mem_cons_of_mem _ hi
      · exact fun i hi => hi
    refine ⟨?_, ?_, fun i hi => hcon i (hsu i hi), ?_, ?_, ?_⟩
    · rcases hcas with heq | ⟨heq, -⟩ <;> rw [heq]
      · exact h.addrs
      · exact nodup_cons.2 ⟨haddr, h.addrs⟩
    · rcases hcas with heq | ⟨heq, hfre⟩ <;> rw [heq]
      · exact h.ids
      · exact nodup_cons.2 ⟨hfre, h.ids⟩
    · intro i hi
      rcases mem_cons.1 (hsu i hi) with rfl | hi
      · rwa [← hhen]
      · exact h.below i hi
    · rw [hpush.maxSize]
      exact h.maxSize_pos
    · refine .inr ⟨newHead, hpush.head, ?_, hid⟩
      rcases hcas with heq | ⟨heq, -⟩ <;> rw [heq]
      · exact hmem
      · exact mem_cons_of_mem _ hmem

lemma remove_head (h : db.AtHead id) {prev : ForkItem H Tx Sched} (hhead : db.head = some head)
    (hprev : prev ∈ db.index) (hlink : head.prev = some prev.addr) (hne : prev.id ≠ head.id)
    (locals : List (ForkItem H Tx Sched)) : db.remove locals head.id =
      { db with index := db.index.filter fun i => decide (i.id ≠ head.id), head := some prev } := by
  have hnodup : ((db.index.filter fun i => decide (i.id ≠ head.id)).map addr).Nodup :=
    h.addrs.sublist ((filter_sublist).map _)
  have hmem : prev ∈ db.index.filter fun i => decide (i.id ≠ head.id) :=
    mem_filter.2 ⟨hprev, decide_eq_true hne⟩
  have hfind := find?_key_eq hnodup hmem
  simp only [remove, hhead, popBlock, lockPrev, hlink, lock, Option.bind_some, if_true,
    append_assoc, find?_append, hfind, Option.some_or]

lemma remove_first (hhead : db.head = some head) (hlink : head.prev = none)
    (locals : List (ForkItem H Tx Sched)) : db.remove locals head.id =
      { db with index := db.index.filter fun i => decide (i.id ≠ head.id), head := none } := by
  simp only [remove, hhead, popBlock, lockPrev, hlink, Option.bind_none, if_true]

end AtHead

end ForkDatabase

end Graphene.Chain
