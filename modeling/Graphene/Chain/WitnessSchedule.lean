import Mathlib.Data.UInt

/-!
# The witness schedule

The time after the head block is divided into slots, and the slots are given to the witnesses in a
shuffled order.  There are two checks that a block was produced by the witness of its slot.
`validate_block_header` computes the slot from the state at head.  `verify_signing_witness` runs before
the block enters the fork database, and uses what `update_witnesses` has cached with the previous block.

Times wrap at 32 bits.  The two checks differ in one place only: the slot of the last second that can be
expressed wraps to zero when slots last one second and the first one is at zero.
-/

namespace Graphene.Chain

open Option UInt32 Nat

/-- What the schedule is computed from: the dynamic global properties, the parameters, the witness
schedule, and the signing keys of the witnesses that exist. -/
structure ScheduleState (W K : Type) where
  headBlockNum : UInt32
  headBlockTime : UInt32
  currentAslot : UInt64
  maintenanceFlag : Bool
  blockInterval : UInt8
  maintenanceSkipSlots : UInt8
  activeWitnesses : List W
  currentShuffledWitnesses : List W
  signingKey : W → Option K
  /-- an assertion of `chain_parameters::validate` -/
  blockInterval_ne_zero : blockInterval ≠ 0

structure ProducedBlock (W K : Type) where
  timestamp : UInt32
  witness : W
  validateSignee : K → Bool

structure CachedSchedule (W K : Type) where
  scheduledWitnesses : List (W × K)
  nextBlockAslot : UInt64
  nextBlockTime : UInt32

namespace ScheduleState

variable {W K : Type} (s : ScheduleState W K)

/-- `block_interval`, as an operand of 32 bits. -/
def interval : UInt32 :=
  s.blockInterval.toUInt32

def getSlotTime (slotNum : UInt32) : UInt32 :=
  if slotNum = 0 then 0
  else if s.headBlockNum = 0 then s.headBlockTime + slotNum * s.interval
  else
    let headSlotTime := s.headBlockTime / s.interval * s.interval
    -- slots are skipped after a maintenance block
    let slotNum := if s.maintenanceFlag then slotNum + s.maintenanceSkipSlots.toUInt32 else slotNum
    headSlotTime + slotNum * s.interval

def getSlotAtTime (time : UInt32) : UInt32 :=
  let firstSlotTime := s.getSlotTime 1
  if time < firstSlotTime then 0
  else (time - firstSlotTime) / s.interval + 1

/-- `get_scheduled_witness`; nothing if there are no witnesses. -/
def getScheduledWitness (slotNum : UInt32) : Option W :=
  let currentAslot := s.currentAslot + slotNum.toUInt64
  s.currentShuffledWitnesses[currentAslot.toNat % s.currentShuffledWitnesses.length]?

variable (nowHi : UInt64)

def shuffleNumber (i : Nat) : UInt64 :=
  let k := nowHi + UInt64.ofNat i * 2685821657736338717
  let k := k ^^^ (k >>> 12)
  let k := k ^^^ (k <<< 25)
  let k := k ^^^ (k >>> 27)
  k * 2685821657736338717

variable (l : List W)

def swapElements (i j : Nat) : List W :=
  match l[i]?, l[j]? with
  | some a, some b => (l.set i b).set j a
  | _, _ => l

/-- The loop of `update_witness_schedule`: each position is swapped with itself or a later one. -/
def shuffle : List W :=
  (List.range l.length).foldl
    (fun l i => swapElements l i (i + (shuffleNumber nowHi i).toNat % (l.length - i))) l

/-- `update_witness_schedule`: the active witnesses are shuffled after every round of blocks. -/
def updateWitnessSchedule : ScheduleState W K :=
  if s.headBlockNum.toNat % s.activeWitnesses.length = 0 then
    { s with
      currentShuffledWitnesses := shuffle (s.headBlockTime.toUInt64 <<< 32) s.activeWitnesses }
  else s

lemma swapElements_perm (i j : Nat) : (swapElements l i j).Perm l := by
  unfold swapElements
  split
  · next a b ha hb =>
    obtain ⟨hi, rfl⟩ := List.getElem?_eq_some_iff.1 ha
    obtain ⟨hj, rfl⟩ := List.getElem?_eq_some_iff.1 hb
    exact List.set_set_perm hi hj
  · exact List.Perm.refl l

/-- The list after `k` rounds of the loop. -/
def shuffledTo (k : Nat) : List W :=
  (List.range k).foldl
    (fun l i => swapElements l i (i + (shuffleNumber nowHi i).toNat % (l.length - i))) l

lemma shuffledTo_perm (k : Nat) : (shuffledTo nowHi l k).Perm l := by
  unfold shuffledTo
  generalize List.range k = positions
  induction positions generalizing l with
  | nil => exact List.Perm.refl l
  | cons i positions ih => exact (ih _).trans (swapElements_perm _ _ _)

lemma shuffle_perm : (shuffle nowHi l).Perm l :=
  shuffledTo_perm nowHi l l.length

section

variable {s} {t : ScheduleState W K} {slotNum k : UInt32}

/-! ## Rounds of slots -/

/-- One witness, whose head block was a maintenance block after which three slots are skipped. -/
def singleWitness (headBlockTime : UInt32) (blockInterval : UInt8) (h : blockInterval ≠ 0) :
    ScheduleState Nat Nat where
  headBlockNum := 1
  headBlockTime := headBlockTime
  currentAslot := 1
  maintenanceFlag := true
  blockInterval := blockInterval
  maintenanceSkipSlots := 3
  activeWitnesses := [6]
  currentShuffledWitnesses := [6]
  signingKey := fun w => if w = 6 then some 60 else none
  blockInterval_ne_zero := h

/-- The states from a shuffle to the next one, while the active witnesses are the same. -/
inductive Round (s : ScheduleState W K) : ScheduleState W K → Prop
  | start : Round s s.updateWitnessSchedule
  | block {t u : ScheduleState W K} (h : Round s t) (hactive : u.activeWitnesses = t.activeWitnesses)
      (hshuffled : u.currentShuffledWitnesses = t.currentShuffledWitnesses)
      (hnext : u.headBlockNum.toNat % u.activeWitnesses.length ≠ 0) : Round s u.updateWitnessSchedule

lemma Round.shuffled (h : Round s t) :
    t.currentShuffledWitnesses = s.updateWitnessSchedule.currentShuffledWitnesses := by
  induction h with
  | start => rfl
  | block _ _ hshuffled hnext ih =>
    rw [updateWitnessSchedule, if_neg hnext]
    exact hshuffled.trans ih

/-- In the state `t` the slot has the absolute number `a`. -/
def IsSlot (t : ScheduleState W K) (slotNum : UInt32) (a : Nat) : Prop :=
  t.currentAslot.toNat + slotNum.toNat = a ∧ a < 2 ^ 64

lemma IsSlot.scheduled {a : Nat} (h : t.IsSlot slotNum a) :
    t.getScheduledWitness slotNum
      = t.currentShuffledWitnesses[a % t.currentShuffledWitnesses.length]? := by
  obtain ⟨ha, hlt⟩ := h
  rw [getScheduledWitness, UInt64.toNat_add, toNat_toUInt64, ha, mod_eq_of_lt hlt]

lemma getElem?_mod_ne {l : List W} (hnodup : l.Nodup) {a b : Nat} (hab : a < b)
    (hba : b < a + l.length) :
    ∃ w ∈ l, ∃ w' ∈ l, w ≠ w' ∧ l[a % l.length]? = some w ∧ l[b % l.length]? = some w' := by
  have hlt : a % l.length < l.length := mod_lt _ (by omega)
  have hlt' : b % l.length < l.length := mod_lt _ (by omega)
  refine ⟨_, List.getElem_mem hlt, _, List.getElem_mem hlt', fun heq => ?_,
    List.getElem?_eq_getElem hlt, List.getElem?_eq_getElem hlt'⟩
  -- equal witnesses stand at equal positions
  have hdvd : l.length ∣ b - a := (modEq_iff_dvd' hab.le).1 (hnodup.getElem_inj_iff.1 heq)
  have hle := Nat.le_of_dvd (Nat.sub_pos_of_lt hab) hdvd
  omega

/-- A shuffle permutes the active witnesses, with indices in range.  Until the next one, slots whose
absolute numbers differ by less than the number of witnesses have different witnesses. -/
theorem shuffled_fairly (hnodup : s.activeWitnesses.Nodup)
    (hshuffle : s.headBlockNum.toNat % s.activeWitnesses.length = 0) :
    s.updateWitnessSchedule.currentShuffledWitnesses.Perm s.activeWitnesses ∧
    (∀ nowHi, ∀ i < s.activeWitnesses.length, let l := shuffledTo nowHi s.activeWitnesses i
      i < l.length ∧ i + (shuffleNumber nowHi i).toNat % (l.length - i) < l.length) ∧
    ∀ t u, Round s t → Round s u → ∀ slot slot' a b, t.IsSlot slot a → u.IsSlot slot' b →
      a < b → b < a + s.activeWitnesses.length →
      ∃ w ∈ s.activeWitnesses, ∃ w' ∈ s.activeWitnesses, w ≠ w' ∧
        t.getScheduledWitness slot = some w ∧ u.getScheduledWitness slot' = some w' := by
  have hperm : s.updateWitnessSchedule.currentShuffledWitnesses.Perm s.activeWitnesses := by
    rw [updateWitnessSchedule, if_pos hshuffle]
    exact shuffle_perm _ _
  refine ⟨hperm, fun nowHi i hi => ?_, ?_⟩
  · have hmod := Nat.mod_lt (shuffleNumber nowHi i).toNat (Nat.sub_pos_of_lt hi)
    dsimp only
    rw [(shuffledTo_perm nowHi s.activeWitnesses i).length_eq]
    omega
  · -- both slots are looked up in the list of the one shuffle
    intro t u ht hu slot slot' a b ha hb hab hba
    rw [← hperm.length_eq] at hba
    rw [ha.scheduled, hb.scheduled, ht.shuffled, hu.shuffled]
    simpa only [hperm.mem_iff] using getElem?_mod_ne (hperm.nodup_iff.2 hnodup) hab hba

def threeWitnesses : ScheduleState Nat Nat :=
  { singleWitness 100 5 (by decide) with headBlockNum := 3, activeWitnesses := [6, 7, 8] }

theorem shuffled_fairly_threeWitnesses :
    ∃ w w', w ≠ w' ∧ threeWitnesses.updateWitnessSchedule.getScheduledWitness 1 = some w ∧
      threeWitnesses.updateWitnessSchedule.getScheduledWitness 2 = some w' := by
  obtain ⟨w, -, w', -, h⟩ := (shuffled_fairly (s := threeWitnesses) (by decide) (by decide)).2.2
    _ _ .start .start 1 2 2 3 ⟨rfl, by decide⟩ ⟨rfl, by decide⟩ (by decide) (by decide)
  exact ⟨w, w', h⟩

/-! ## Times of slots -/

lemma toNat_slot (hfirst : s.getSlotTime 1 ≠ 0) {time : UInt32} (htime : s.getSlotTime 1 ≤ time) :
    ((time - s.getSlotTime 1) / s.interval + 1).toNat
      = ((time - s.getSlotTime 1) / s.interval).toNat + 1 := by
  have hpos : 0 < (s.getSlotTime 1).toNat := by
    refine Nat.pos_of_ne_zero fun hzero => hfirst ?_
    exact UInt32.toNat_inj.1 hzero
  have hle : ((time - s.getSlotTime 1) / s.interval).toNat ≤ time.toNat - (s.getSlotTime 1).toNat := by
    rw [UInt32.toNat_div, UInt32.toNat_sub_of_le _ _ htime]
    exact Nat.div_le_self _ _
  have hlt := time.toNat_lt
  rw [UInt32.toNat_add]
  refine Nat.mod_eq_of_lt ?_
  change _ + 1 < _
  omega

/-- The time from which slots are counted. -/
def slotZero (s : ScheduleState W K) : Nat :=
  if s.headBlockNum = 0 then s.headBlockTime.toNat
  else s.headBlockTime.toNat / s.interval.toNat * s.interval.toNat
    + (if s.maintenanceFlag then s.maintenanceSkipSlots.toNat else 0) * s.interval.toNat

lemma interval_pos (s : ScheduleState W K) : 0 < s.interval.toNat :=
  Nat.pos_of_ne_zero fun h => s.blockInterval_ne_zero (UInt8.toNat_inj.1 h)

lemma lt_slotZero (s : ScheduleState W K) : s.headBlockTime.toNat < s.slotZero + s.interval.toNat := by
  have hpos := s.interval_pos
  unfold slotZero
  split
  · omega
  · have := lt_div_mul_add (a := s.headBlockTime.toNat) hpos
    omega

lemma getSlotTime_eq (hk : k ≠ 0) :
    s.getSlotTime k = UInt32.ofNat (s.slotZero + k.toNat * s.interval.toNat) := by
  rw [getSlotTime, if_neg hk, slotZero, ← UInt32.toNat_div]
  split
  · simp
  · cases s.maintenanceFlag
    · simp [-UInt32.toNat_div]
    · simp [-UInt32.toNat_div, UInt32.add_mul, UInt32.add_assoc, UInt32.add_comm (k * s.interval)]

/-- The time of a slot fits into 32 bits. -/
def SlotFits (s : ScheduleState W K) (k : UInt32) : Prop :=
  k ≠ 0 ∧ s.slotZero + k.toNat * s.interval.toNat < 2 ^ 32

lemma SlotFits.time (h : s.SlotFits k) :
    (s.getSlotTime k).toNat = s.slotZero + k.toNat * s.interval.toNat := by
  rw [getSlotTime_eq h.1, toNat_ofNat_of_lt' h.2]

lemma SlotFits.pos (h : s.SlotFits k) : 0 < k.toNat :=
  Nat.pos_of_ne_zero fun hk => h.1 (UInt32.toNat_inj.1 hk)

lemma SlotFits.mono {j : UInt32} (h : s.SlotFits k) (hj : j ≠ 0) (hjk : j ≤ k) : s.SlotFits j :=
  ⟨hj, (Nat.add_le_add_left (Nat.mul_le_mul_right _ hjk) _).trans_lt h.2⟩

lemma toNat_getSlotAtTime (h : s.SlotFits 1) (t : UInt32) :
    (s.getSlotAtTime t).toNat = (t.toNat - s.slotZero) / s.interval.toNat := by
  have hfirst : (s.getSlotTime 1).toNat = s.slotZero + s.interval.toNat := h.time.trans (by simp)
  have hpos := s.interval_pos
  unfold getSlotAtTime
  dsimp only
  split_ifs with hlt
  · rw [lt_iff_toNat_lt, hfirst] at hlt
    exact (div_eq_of_lt (by omega)).symm
  · have hle := UInt32.not_lt.1 hlt
    have hne : s.getSlotTime 1 ≠ 0 := by
      intro hzero
      rw [hzero, UInt32.toNat_zero] at hfirst
      omega
    rw [toNat_slot hne hle, UInt32.toNat_div, UInt32.toNat_sub_of_le _ _ hle, hfirst]
    rw [le_iff_toNat_le, hfirst] at hle
    rw [← add_div_right _ hpos]
    congr 1
    omega

/-- The times of the slots increase, and a time belongs to the last slot that is not after it; slot 0
stands for the time before the first slot, which is after the head block. -/
theorem slots_partition_time (h : s.SlotFits k) :
    s.headBlockTime < s.getSlotTime 1 ∧ (∀ j, j ≠ 0 → j < k → s.getSlotTime j < s.getSlotTime k) ∧
    s.getSlotAtTime (s.getSlotTime k) = k ∧
    (s.SlotFits (k + 1) → ∀ t,
      s.getSlotAtTime t = k ↔ s.getSlotTime k ≤ t ∧ t < s.getSlotTime (k + 1)) ∧
    ∀ t, s.getSlotAtTime t = 0 ↔ t < s.getSlotTime 1 := by
  have hone : s.SlotFits 1 := h.mono (by decide) h.pos
  have hpos := s.interval_pos
  simp only [UInt32.lt_iff_toNat_lt, UInt32.le_iff_toNat_le, ← UInt32.toNat_inj,
    toNat_getSlotAtTime hone, hone.time, h.time, UInt32.toNat_one, Nat.one_mul]
  refine ⟨s.lt_slotZero, ?_, ?_, ?_, ?_⟩
  · intro j hj hjk
    rw [(h.mono hj (UInt32.le_of_lt hjk)).time]
    exact Nat.add_lt_add_left (Nat.mul_lt_mul_of_pos_right hjk hpos) _
  · rw [Nat.add_sub_cancel_left, Nat.mul_div_cancel _ hpos]
  · intro hnext t
    have hsucc : (k + 1).toNat = k.toNat + 1 := by
      have hlt := k.toNat_lt
      have hwrap : k.toNat + 1 ≠ 2 ^ 32 := fun hk => hnext.1 (UInt32.toNat_inj.1 (by simp [hk]))
      rw [UInt32.toNat_add, UInt32.toNat_one, Nat.mod_eq_of_lt (by omega)]
    rw [hnext.time, hsucc, Nat.div_eq_iff hpos, Nat.add_mul, Nat.one_mul]
    have := Nat.mul_pos h.pos hpos
    omega
  · intro t
    rw [UInt32.toNat_zero, Nat.div_eq_zero_iff_lt hpos]
    omega

theorem slots_partition_time_maintenance :
    let s := singleWitness 100 5 (by decide)
    s.getSlotTime 2 = 125 ∧ s.getSlotAtTime (s.getSlotTime 2) = 2 :=
  ⟨by decide, (slots_partition_time ⟨by decide, by decide⟩).2.2.1⟩

end

/-- `update_witnesses`, of an item without a schedule; nothing if a witness does not exist. -/
def updateWitnesses : Option (CachedSchedule W K) := do
  let scheduledWitnesses ← s.currentShuffledWitnesses.mapM fun w => (s.signingKey w).map fun key => (w, key)
  return {
    scheduledWitnesses := scheduledWitnesses
    nextBlockAslot := s.currentAslot + 1
    nextBlockTime := s.getSlotTime 1 }

def cachedSlot (cached : CachedSchedule W K) (b : ProducedBlock W K) : UInt32 :=
  (b.timestamp - cached.nextBlockTime) / s.interval

variable [DecidableEq W]

def verifySigningWitness (cached : CachedSchedule W K) (b : ProducedBlock W K) : Bool :=
  if cached.nextBlockTime ≤ b.timestamp then
    let index := (cached.nextBlockAslot + (s.cachedSlot cached b).toUInt64).toNat
      % cached.scheduledWitnesses.length
    match cached.scheduledWitnesses[index]? with
    | some (w, key) => decide (b.witness = w) && b.validateSignee key
    | none => false
  else false

/-- The checks of `validate_block_header` on the witness: its key and its slot. -/
def validateWitness (b : ProducedBlock W K) : Bool :=
  match s.signingKey b.witness with
  | none => false
  | some key =>
    let slotNum := s.getSlotAtTime b.timestamp
    b.validateSignee key && decide (slotNum ≠ 0) &&
      decide (s.getScheduledWitness slotNum = some b.witness)

lemma getElem?_of_mapM {α β : Type} {f : α → Option β} {l : List α} {l' : List β}
    (h : l.mapM f = some l') : (∀ i : Nat, l'[i]? = l[i]?.bind f) ∧ l'.length = l.length := by
  induction l generalizing l' with
  | nil =>
    cases h
    exact ⟨fun _ => rfl, rfl⟩
  | cons a l ih =>
    simp only [List.mapM_cons, bind_eq_bind, bind_eq_some_iff, pure_def, some.injEq] at h
    obtain ⟨b, hb, bs, hbs, rfl⟩ := h
    obtain ⟨hget, hlen⟩ := ih hbs
    refine ⟨fun i => ?_, congrArg (· + 1) hlen⟩
    cases i with
    | zero => simpa using hb.symm
    | succ i => simpa using hget i

variable {s} {cached : CachedSchedule W K}

structure Caches (s : ScheduleState W K) (cached : CachedSchedule W K) : Prop where
  witnesses : ∀ i : Nat, cached.scheduledWitnesses[i]? = s.currentShuffledWitnesses[i]?.bind fun w =>
    (s.signingKey w).map fun key => (w, key)
  length : cached.scheduledWitnesses.length = s.currentShuffledWitnesses.length
  aslot : cached.nextBlockAslot = s.currentAslot + 1
  time : cached.nextBlockTime = s.getSlotTime 1

omit [DecidableEq W] in
lemma caches_of_updateWitnesses (h : s.updateWitnesses = some cached) : s.Caches cached := by
  simp only [updateWitnesses, bind_eq_bind, bind_eq_some_iff, pure_def, some.injEq] at h
  obtain ⟨scheduled, hsch, rfl⟩ := h
  obtain ⟨hget, hlen⟩ := getElem?_of_mapM hsch
  exact ⟨hget, hlen, rfl, rfl⟩

/-! ## Agreement -/

omit [DecidableEq W] in
lemma absolute_slot (hfirst : s.getSlotTime 1 ≠ 0) {time : UInt32} (htime : s.getSlotTime 1 ≤ time) :
    s.currentAslot + 1 + ((time - s.getSlotTime 1) / s.interval).toUInt64
      = s.currentAslot + ((time - s.getSlotTime 1) / s.interval + 1).toUInt64 := by
  have hcast : ((time - s.getSlotTime 1) / s.interval + 1).toUInt64
      = ((time - s.getSlotTime 1) / s.interval).toUInt64 + 1 := by
    apply UInt64.toNat_inj.1
    have hlt := ((time - s.getSlotTime 1) / s.interval).toNat_lt
    rw [toNat_toUInt64, toNat_slot hfirst htime, UInt64.toNat_add, toNat_toUInt64]
    exact (mod_eq_of_lt (by omega)).symm
  rw [hcast, UInt64.add_assoc, UInt64.add_comm 1]

/-- A block is accepted by the early check if and only if it is accepted by the check against the
state, unless the first slot after the head is at zero. -/
theorem early_check_agrees (hcached : s.updateWitnesses = some cached) (hfirst : s.getSlotTime 1 ≠ 0)
    (b : ProducedBlock W K) : s.verifySigningWitness cached b = s.validateWitness b := by
  have hc := caches_of_updateWitnesses hcached
  unfold verifySigningWitness validateWitness getSlotAtTime cachedSlot getScheduledWitness
  rw [hc.time, hc.aslot, hc.length]
  by_cases htime : s.getSlotTime 1 ≤ b.timestamp
  · -- the slot is not zero, and it is the same one
    have hnot : ¬ b.timestamp < s.getSlotTime 1 := UInt32.not_lt.2 htime
    have hslot : (b.timestamp - s.getSlotTime 1) / s.interval + 1 ≠ 0 := by
      intro hzero
      have hsucc := toNat_slot hfirst htime
      rw [hzero, UInt32.toNat_zero] at hsucc
      exact absurd hsucc.symm (succ_ne_zero _)
    simp only [if_pos htime, if_neg hnot, absolute_slot hfirst htime, hc.witnesses]
    generalize (s.currentAslot + ((b.timestamp - s.getSlotTime 1) / s.interval + 1).toUInt64).toNat
      % s.currentShuffledWitnesses.length = i
    cases hw : s.currentShuffledWitnesses[i]? with
    | none => cases s.signingKey b.witness <;> simp
    | some w =>
      by_cases heq : b.witness = w
      · subst heq
        cases hkey : s.signingKey b.witness with
        | none => simp [hkey]
        | some key => simp [hkey, hslot]
      · have hne : ¬ w = b.witness := fun h => heq h.symm
        cases hkey : s.signingKey w <;> cases s.signingKey b.witness <;> simp [hkey, heq, hne]
  · -- the block is too early for both
    have hlt : b.timestamp < s.getSlotTime 1 := UInt32.not_le.1 htime
    cases s.signingKey b.witness <;> simp [htime, hlt]

def blockAt (timestamp : UInt32) : ProducedBlock Nat Nat :=
  ⟨timestamp, 6, fun key => key = 60⟩

/-- After a maintenance block the first slot is twenty seconds later; the block in it is accepted by
both checks. -/
theorem early_check_agrees_maintenance :
    ∃ cached, (singleWitness 100 5 (by decide)).updateWitnesses = some cached ∧
      (singleWitness 100 5 (by decide)).verifySigningWitness cached (blockAt 120) = true ∧
      (singleWitness 100 5 (by decide)).validateWitness (blockAt 120) = true := by
  refine ⟨_, rfl, ?_, by decide⟩
  rw [early_check_agrees rfl (by decide)]
  decide

/-- Four seconds before the last one, with slots of one second of which three are skipped, the first
slot is at zero.  The early check accepts the last second, the check against the state does not. -/
theorem last_second_accepted_early :
    ∃ cached, (singleWitness 4294967292 1 (by decide)).updateWitnesses = some cached ∧
      (4294967292 : UInt32) < (blockAt 4294967295).timestamp ∧
      (singleWitness 4294967292 1 (by decide)).verifySigningWitness cached (blockAt 4294967295) = true ∧
      (singleWitness 4294967292 1 (by decide)).validateWitness (blockAt 4294967295) = false :=
  ⟨_, rfl, by decide, by decide, by decide⟩

end ScheduleState
end Graphene.Chain
