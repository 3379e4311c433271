import Graphene.Db.SecondaryIndex
import Graphene.Lib.FlatSet
import Graphene.Lib.MultiMap
import Graphene.Protocol.Types

/-!
# The membership index of accounts

`account_member_index` maps accounts, public keys and addresses to the accounts whose owner or active
authority contains them.  The sets of keys are sorted by the key data, but their differences are
computed with the `operator<` of keys, which compares addresses: a key that did not change can be in
both differences, and is then dropped and added again.

The members before a modification are kept in the index itself, where modifications made inside the
callback overwrite them.
-/

namespace Graphene.Chain

open Lib Protocol Db List Option MultiMap FlatSet Indexed Function IndexCall

structure AuthorityMembers (Key Address : Type) where
  accountAuths : List (AccountId × Nat) := []
  keyAuths : List (Key × Nat) := []
  addressAuths : List (Address × Nat) := []

structure MemberAccount (Key Address : Type) where
  owner : AuthorityMembers Key Address := {}
  active : AuthorityMembers Key Address := {}
  memoKey : Key

/-- What `account_member_index` maps, and the members before the current modification. -/
structure AccountMemberIndex (Key Address : Type) [LinearOrder Key] [LinearOrder Address] where
  accountToAccountMemberships : MultiMap AccountId AccountId := ∅
  accountToKeyMemberships : MultiMap Key AccountId := ∅
  accountToAddressMemberships : MultiMap Address AccountId := ∅
  beforeAccountMembers : FlatSet AccountId := .empty
  beforeKeyMembers : FlatSet Key := .empty
  beforeAddressMembers : FlatSet Address := .empty

variable {Key Address : Type} [LinearOrder Key] [LinearOrder Address]

namespace MemberAccount

variable (a : MemberAccount Key Address)

def getAccountMembers : FlatSet AccountId :=
  (FlatSet.empty.insertAll (a.owner.accountAuths.map Prod.fst)).insertAll
    (a.active.accountAuths.map Prod.fst)

def getKeyMembers : FlatSet Key :=
  ((FlatSet.empty.insertAll (a.owner.keyAuths.map Prod.fst)).insertAll
    (a.active.keyAuths.map Prod.fst)).insert a.memoKey

def getAddressMembers : FlatSet Address :=
  (FlatSet.empty.insertAll (a.owner.addressAuths.map Prod.fst)).insertAll
    (a.active.addressAuths.map Prod.fst)

def SameMembers (a b : MemberAccount Key Address) : Prop :=
  a.getAccountMembers = b.getAccountMembers ∧ a.getKeyMembers = b.getKeyMembers ∧
    a.getAddressMembers = b.getAddressMembers

end MemberAccount

/-- The part of `object_modified` that is written out for each kind of member: the account is
dropped from what was removed and added to what was added. -/
def updateMemberships {K : Type} [LinearOrder K] (lt : K → K → Bool) (before after : FlatSet K)
    (id : AccountId) (m : MultiMap K AccountId) : MultiMap K AccountId :=
  let removed := setDifference lt before.elems after.elems
  let m := m.dropAll removed id
  let added := setDifference lt after.elems before.elems
  m.addAll added id

namespace AccountMemberIndex

/-- `operator<` of `public_key_type`. -/
def keyLess (address : Key → Address) (k k' : Key) : Bool :=
  address k < address k'

def objectInserted (id : AccountId) (a : MemberAccount Key Address)
    (r : AccountMemberIndex Key Address) : AccountMemberIndex Key Address :=
  { r with
    accountToAccountMemberships := r.accountToAccountMemberships.addAll a.getAccountMembers.elems id
    accountToKeyMemberships := r.accountToKeyMemberships.addAll a.getKeyMembers.elems id
    accountToAddressMemberships :=
      r.accountToAddressMemberships.addAll a.getAddressMembers.elems id }

def objectRemoved (id : AccountId) (a : MemberAccount Key Address)
    (r : AccountMemberIndex Key Address) : AccountMemberIndex Key Address :=
  { r with
    accountToKeyMemberships := r.accountToKeyMemberships.dropAll a.getKeyMembers.elems id
    accountToAddressMemberships :=
      r.accountToAddressMemberships.dropAll a.getAddressMembers.elems id
    accountToAccountMemberships :=
      r.accountToAccountMemberships.dropAll a.getAccountMembers.elems id }

def aboutToModify (_ : AccountId) (a : MemberAccount Key Address)
    (r : AccountMemberIndex Key Address) : AccountMemberIndex Key Address :=
  { r with
    beforeKeyMembers := a.getKeyMembers
    beforeAddressMembers := a.getAddressMembers
    beforeAccountMembers := a.getAccountMembers }

def objectModified (address : Key → Address) (id : AccountId) (a : MemberAccount Key Address)
    (r : AccountMemberIndex Key Address) : AccountMemberIndex Key Address :=
  { r with
    accountToAccountMemberships :=
      updateMemberships (fun x y => x < y) r.beforeAccountMembers a.getAccountMembers id
        r.accountToAccountMemberships
    accountToKeyMemberships :=
      updateMemberships (keyLess address) r.beforeKeyMembers a.getKeyMembers id
        r.accountToKeyMemberships
    accountToAddressMemberships :=
      updateMemberships (fun x y => x < y) r.beforeAddressMembers a.getAddressMembers id
        r.accountToAddressMemberships }

end AccountMemberIndex

open AccountMemberIndex (keyLess)

/-- The index as `primary_index` sees it; `address` is the hash that gives a key its address. -/
def accountMemberIndex (address : Key → Address) :
    SecondaryIndex (MemberAccount Key Address) (AccountMemberIndex Key Address) where
  objectInserted := AccountMemberIndex.objectInserted
  objectRemoved := AccountMemberIndex.objectRemoved
  aboutToModify := AccountMemberIndex.aboutToModify
  objectModified := AccountMemberIndex.objectModified address

abbrev Accounts (Key Address : Type) [LinearOrder Key] [LinearOrder Address] :=
  Indexed (MemberAccount Key Address) (AccountMemberIndex Key Address)

variable {id : AccountId}

section OneKind

variable {K V : Type} [LinearOrder K]

def ListsMembers (m : MultiMap K AccountId) (members : V → FlatSet K)
    (objects : Nat → Option V) : Prop :=
  ∀ k id, m.Lists k id ↔ ∃ a, objects id = some a ∧ k ∈ members a

variable {m : MultiMap K AccountId} {members : V → FlatSet K} {w : Nat → Option V}

variable (h : ListsMembers m members w)
include h

lemma ListsMembers.insert (hid : w id = none) (a : V) :
    ListsMembers (m.addAll (members a).elems id) members (update w id (some a)) := by
  intro k id'
  rw [lists_addAll, h k id', update_apply, mem_elems]
  by_cases hne : id' = id
  · subst hne
    simp [hid]
  · simp [hne]

lemma ListsMembers.remove {a : V} (hid : w id = some a) :
    ListsMembers (m.dropAll (members a).elems id) members (update w id none) := by
  intro k id'
  rw [lists_dropAll, h k id', update_apply, mem_elems]
  by_cases hne : id' = id
  · subst hne
    simp [hid]
  · simp [hne]

lemma ListsMembers.modify {lt : K → K → Bool}
    (hasymm : ∀ x y, lt x y → ¬ lt y x) {before : FlatSet K} {a after : V}
    (hsep : Separates lt before.elems (members after).elems) (hid : w id = some a)
    (hbef : before = members a ∨ members a = members after) :
    ListsMembers (updateMemberships lt before (members after) id m) members
      (update w id (some after)) := by
  intro k id'
  rw [updateMemberships, lists_addAll, lists_dropAll, h k id', update_apply]
  by_cases hne : id' = id
  · subst hne
    -- a member that is dropped although it stays is added again
    have hagain : k ∈ setDifference lt before.elems (members after).elems → k ∈ members after →
        k ∈ setDifference lt (members after).elems before.elems :=
      fun hk hmem => mem_setDifference_swap hasymm hsep before.nodup hk hmem
    have hadded : k ∈ setDifference lt (members after).elems before.elems → k ∈ members after :=
      fun hk => mem_of_mem_setDifference hk
    simp only [hid, and_true, some_inj, exists_eq_left', if_true]
    rcases hbef with rfl | heq
    · have hnew : k ∈ members after → k ∉ members a →
          k ∈ setDifference lt (members after).elems (members a).elems :=
        fun hk hno => mem_setDifference_of_not_mem hsep.symm hk hno
      have hold : k ∈ members a → k ∉ members after →
          k ∈ setDifference lt (members a).elems (members after).elems :=
        fun hk hno => mem_setDifference_of_not_mem hsep hk hno
      tauto
    · rw [heq]
      tauto
  · simp [hne]

end OneKind

/-! ## Exactness -/

open MemberAccount

/-- The index associates with every account, key and address precisely the accounts whose
authorities, or memo key, contain it. -/
structure MembersExact (w : Accounts Key Address) : Prop where
  accounts : ListsMembers w.secondary.accountToAccountMemberships getAccountMembers w.objects
  keys : ListsMembers w.secondary.accountToKeyMemberships getKeyMembers w.objects
  addresses : ListsMembers w.secondary.accountToAddressMemberships getAddressMembers w.objects

structure KeysWithin (X : Set Key) (w : Accounts Key Address) : Prop where
  objects : ∀ id a, w.objects id = some a → ∀ k ∈ a.getKeyMembers, k ∈ X
  before : ∀ k ∈ w.secondary.beforeKeyMembers, k ∈ X

structure MembersKept (X : Set Key) (w : Accounts Key Address) : Prop where
  exact : MembersExact w
  keys : KeysWithin X w

variable {X : Set Key} {address : Key → Address} {w : Accounts Key Address}

lemma membersKept_empty : MembersKept X (.empty {} : Accounts Key Address) where
  exact := by
    refine ⟨?_, ?_, ?_⟩ <;> intro k id <;> simpa [Indexed.empty] using not_lists_empty k id
  keys := ⟨by simp [Indexed.empty], by simp [Indexed.empty]⟩

variable {a : MemberAccount Key Address}

lemma MembersKept.insert (h : MembersKept X w) (ha : ∀ k ∈ a.getKeyMembers, k ∈ X) :
    MembersKept X (w.insert (accountMemberIndex address) id a) := by
  unfold Indexed.insert
  cases hid : w.objects id with
  | some => exact h
  | none =>
    refine ⟨⟨h.exact.accounts.insert hid a, h.exact.keys.insert hid a,
      h.exact.addresses.insert hid a⟩, ?_, h.keys.before⟩
    intro id' b hb
    rw [tell_objects, setObject_objects] at hb
    split_ifs at hb
    · cases hb
      exact ha
    · exact h.keys.objects id' b hb

lemma MembersKept.remove (h : MembersKept X w) (id : AccountId) :
    MembersKept X (w.remove (accountMemberIndex address) id) := by
  unfold Indexed.remove
  cases hid : w.objects id with
  | none => exact h
  | some =>
    refine ⟨⟨h.exact.accounts.remove hid, h.exact.keys.remove hid,
      h.exact.addresses.remove hid⟩, ?_, h.keys.before⟩
    intro id' b hb
    rw [setObject_objects, tell_objects] at hb
    split_ifs at hb
    exact h.keys.objects id' b hb

lemma MembersKept.aboutToModify (h : MembersKept X w) (hid : w.objects id = some a) :
    MembersKept X (w.tell ((accountMemberIndex address).aboutToModify id a)) where
  exact := ⟨h.exact.accounts, h.exact.keys, h.exact.addresses⟩
  keys := ⟨h.keys.objects, h.keys.objects id a hid⟩

lemma separates_lt {K : Type} [LinearOrder K] (as bs : List K) :
    Separates (fun x y => decide (x < y)) as bs := by
  intro x _ y _ hxy hyx
  exact le_antisymm (not_lt.1 (by simpa using hyx)) (not_lt.1 (by simpa using hxy))

omit [LinearOrder Key] in
lemma separates_keyLess (hX : Set.InjOn address X) {as bs : List Key} (has : ∀ k ∈ as, k ∈ X)
    (hbs : ∀ k ∈ bs, k ∈ X) : Separates (keyLess address) as bs := by
  intro k hk k' hk' hlt hgt
  apply hX (has k hk) (hbs k' hk')
  simp only [keyLess, decide_eq_true_eq, not_lt] at hlt hgt
  exact le_antisymm hgt hlt

/-- The second call of a modification brings the index up to date, when the members taken down are
those of the object or the object keeps its members. -/
lemma MembersKept.objectModified (hX : Set.InjOn address X) (h : MembersKept X w)
    {after : MemberAccount Key Address} (hid : w.objects id = some a)
    (haft : ∀ k ∈ after.getKeyMembers, k ∈ X)
    (hbef : w.secondary = (accountMemberIndex address).aboutToModify id a w.secondary ∨
      a.SameMembers after) : MembersKept X ((w.setObject id (some after)).tell
      ((accountMemberIndex address).objectModified id after)) := by
  have hcas : ∀ {K : Type} [LinearOrder K] (members : MemberAccount Key Address → FlatSet K)
      (before : FlatSet K), (w.secondary =
          (accountMemberIndex address).aboutToModify id a w.secondary → before = members a) →
        (a.SameMembers after → members a = members after) →
        before = members a ∨ members a = members after :=
    fun _ _ h1 h2 => hbef.imp h1 h2
  refine ⟨⟨?_, ?_, ?_⟩, ?_, h.keys.before⟩
  · refine h.exact.accounts.modify (by simpa using fun _ _ => le_of_lt) (separates_lt _ _) hid
      (hcas getAccountMembers w.secondary.beforeAccountMembers ?_ And.left)
    intro heq
    rw [heq]
    rfl
  · refine h.exact.keys.modify ?_ (separates_keyLess hX h.keys.before haft) hid
      (hcas getKeyMembers w.secondary.beforeKeyMembers ?_ fun hsame => hsame.2.1)
    · intro x y hxy
      simp only [keyLess, decide_eq_true_eq, not_lt] at hxy ⊢
      exact hxy.le
    · intro heq
      rw [heq]
      rfl
  · refine h.exact.addresses.modify (by simpa using fun _ _ => le_of_lt) (separates_lt _ _) hid
      (hcas getAddressMembers w.secondary.beforeAddressMembers ?_ fun hsame => hsame.2.2)
    intro heq
    rw [heq]
    rfl
  · intro id' b hb
    rw [tell_objects, setObject_objects] at hb
    split_ifs at hb
    · cases hb
      exact haft
    · exact h.keys.objects id' b hb

/-! ## Modifications inside modifications -/

section Edits

mutual

def EditKeysIn (X : Set Key) : Edit (MemberAccount Key Address) → Prop
  | .mk _ nested after => (∀ k ∈ after.getKeyMembers, k ∈ X) ∧ EditsKeysIn X nested

def EditsKeysIn (X : Set Key) : List (Edit (MemberAccount Key Address)) → Prop
  | [] => True
  | e :: es => EditKeysIn X e ∧ EditsKeysIn X es

end

mutual

def EditQuiet (address : Key → Address) :
    Edit (MemberAccount Key Address) → Accounts Key Address → Prop
  | .mk id nested after, w =>
    ∀ before, w.objects id = some before →
      EditsQuiet address nested (w.tell ((accountMemberIndex address).aboutToModify id before)) ∧
        (nested = [] ∨ ∀ a, (Edit.runAll (accountMemberIndex address) nested
          (w.tell ((accountMemberIndex address).aboutToModify id before))).objects id = some a →
            a.SameMembers after)

def EditsQuiet (address : Key → Address) :
    List (Edit (MemberAccount Key Address)) → Accounts Key Address → Prop
  | [], _ => True
  | e :: es, w => EditQuiet address e w ∧ EditsQuiet address es (e.run (accountMemberIndex address) w)

end

mutual

theorem MembersKept.edit (hX : Set.InjOn address X) (e : Edit (MemberAccount Key Address))
    {w : Accounts Key Address} (h : MembersKept X w) (hkeys : EditKeysIn X e)
    (hquiet : EditQuiet address e w) : MembersKept X (e.run (accountMemberIndex address) w) := by
  cases e with
  | mk id nested =>
    unfold Edit.run
    cases hid : w.objects id with
    | none => exact h
    | some before =>
      obtain ⟨hnes, hcase⟩ := hquiet before hid
      have hkept := MembersKept.edits hX nested (h.aboutToModify hid) hkeys.2 hnes
      have hpre : (w.tell ((accountMemberIndex address).aboutToModify id before)).objects id
          ≠ none := by
        simp [hid]
      rcases ne_none_iff_exists'.1 (Edit.runAll_objects_ne_none
        (accountMemberIndex address) nested _ hpre) with ⟨a, ha⟩
      refine hkept.objectModified hX ha hkeys.1 ?_
      rcases hcase with rfl | hsame
      · -- nothing came between the two calls
        left
        rw [show before = a from some_inj.1 (hid.symm.trans ha)]
        rfl
      · exact Or.inr (hsame a ha)

theorem MembersKept.edits (hX : Set.InjOn address X) (es : List (Edit (MemberAccount Key Address)))
    {w : Accounts Key Address} (h : MembersKept X w) (hkeys : EditsKeysIn X es)
    (hquiet : EditsQuiet address es w) :
    MembersKept X (Edit.runAll (accountMemberIndex address) es w) := by
  cases es with
  | nil => exact h
  | cons e es =>
    exact MembersKept.edits hX es (MembersKept.edit hX e h hkeys.1 hquiet.1) hkeys.2 hquiet.2

end

lemma editQuiet_flat (id : AccountId) (after : MemberAccount Key Address)
    (w : Accounts Key Address) : EditQuiet address (.mk id [] after) w :=
  fun _ _ => ⟨trivial, Or.inl rfl⟩

end Edits

/-! ## The results -/

def CallKeysIn (X : Set Key) : IndexCall (MemberAccount Key Address) → Prop
  | .insert _ a => ∀ k ∈ a.getKeyMembers, k ∈ X
  | .modify e => EditKeysIn X e
  | .remove _ => True
  | .undo oldValues _ removed =>
    (∀ e ∈ oldValues, ∀ k ∈ e.2.getKeyMembers, k ∈ X) ∧
      ∀ e ∈ removed, ∀ k ∈ e.2.getKeyMembers, k ∈ X

def CallsQuiet (address : Key → Address) :
    List (IndexCall (MemberAccount Key Address)) → Accounts Key Address → Prop
  | [], _ => True
  | c :: cs, w =>
    (match c with
      | .modify e => EditQuiet address e w
      | _ => True) ∧ CallsQuiet address cs (c.run (accountMemberIndex address) w)

lemma foldl_kept {α : Type} {f : Accounts Key Address → α → Accounts Key Address} {l : List α}
    (hf : ∀ w, ∀ x ∈ l, MembersKept X w → MembersKept X (f w x)) (h : MembersKept X w) :
    MembersKept X (l.foldl f w) := by
  induction l generalizing w with
  | nil => exact h
  | cons x l ih => exact ih (fun w y hy => hf w y (mem_cons_of_mem _ hy)) (hf w x mem_cons_self h)

variable {cs : List (IndexCall (MemberAccount Key Address))}

lemma MembersKept.call (hX : Set.InjOn address X) {c : IndexCall (MemberAccount Key Address)}
    (h : MembersKept X w) (hkeys : CallKeysIn X c) (hquiet : CallsQuiet address (c :: cs) w) :
    MembersKept X (c.run (accountMemberIndex address) w) := by
  cases c with
  | insert => exact h.insert hkeys
  | modify e => exact MembersKept.edit hX e h hkeys hquiet.1
  | remove id => exact h.remove id
  | undo =>
    refine foldl_kept (fun w e he h => h.insert (hkeys.2 e he)) ?_
    refine foldl_kept (fun w id _ h => h.remove id) ?_
    refine foldl_kept (fun w e he h => ?_) h
    exact MembersKept.edit hX _ h ⟨hkeys.1 e he, trivial⟩ (editQuiet_flat e.1 e.2 w)

lemma MembersKept.calls (hX : Set.InjOn address X) (h : MembersKept X w)
    (hkeys : ∀ c ∈ cs, CallKeysIn X c) (hquiet : CallsQuiet address cs w) :
    MembersKept X (runAll (accountMemberIndex address) cs w) := by
  induction cs generalizing w with
  | nil => exact h
  | cons c cs ih =>
    exact ih (h.call hX (hkeys c mem_cons_self) hquiet) (forall_mem_cons.1 hkeys).2 hquiet.2

/-- From an empty database on, insertions, modifications, removals and undos keep the index exact,
when no two of the keys that occur have the same address and every modification that contains others
leaves the members of its own account as it finds them. -/
theorem members_exact_of_quiet (address : Key → Address) (X : Set Key) (hX : Set.InjOn address X)
    (cs : List (IndexCall (MemberAccount Key Address))) (hkeys : ∀ c ∈ cs, CallKeysIn X c)
    (hquiet : CallsQuiet address cs (.empty {})) :
    MembersExact (runAll (accountMemberIndex address) cs (.empty {})) :=
  ((membersKept_empty).calls hX hkeys hquiet).exact

section Runs

/-- An account with two keys, one more for memos, and another account that may act for it. -/
def custodian (key other : Nat) : MemberAccount Nat Nat where
  owner := { keyAuths := [(key, 1)] }
  active := { keyAuths := [(2, 1)], accountAuths := [(other, 1)] }
  memoKey := 3

def reversedAddress (k : Nat) : Nat :=
  100 - k

/-- The owner key changes, then the account is upgraded while account 1 is paid; account 1 is
removed and the removal is undone. -/
def rotateAndUpgrade : List (IndexCall (MemberAccount Nat Nat)) :=
  [.insert 0 (custodian 1 7), .insert 1 (custodian 4 0), .modify (.mk 0 [] (custodian 5 7)),
    .modify (.mk 0 [.mk 1 [] (custodian 4 0)] (custodian 5 7)), .remove 1,
    .undo [] [] [(1, custodian 4 0)]]

theorem rotateAndUpgrade_exact :
    MembersExact (runAll (accountMemberIndex reversedAddress) rotateAndUpgrade
      (.empty {})) := by
  refine members_exact_of_quiet reversedAddress (Set.Iic 100) ?_ rotateAndUpgrade ?_ ?_
  · intro k hk k' hk' heq
    simp only [Set.mem_Iic, reversedAddress] at hk hk' heq
    omega
  · have hkeys : ∀ key other, key ≤ 100 → ∀ k ∈ (custodian key other).getKeyMembers,
        k ∈ Set.Iic 100 := by
      intro key other hkey k hk
      simp only [custodian, MemberAccount.getKeyMembers, map_cons, map_nil,
        mem_insert, mem_insertAll, mem_singleton, not_mem_empty,
        or_false] at hk
      simp only [Set.mem_Iic]
      omega
    intro c hc
    simp only [rotateAndUpgrade, mem_cons, not_mem_nil, or_false] at hc
    rcases hc with rfl | rfl | rfl | rfl | rfl | rfl
    · exact hkeys 1 7 (by decide)
    · exact hkeys 4 0 (by decide)
    · exact ⟨hkeys 5 7 (by decide), trivial⟩
    · exact ⟨hkeys 5 7 (by decide), ⟨hkeys 4 0 (by decide), trivial⟩, trivial⟩
    · trivial
    · exact ⟨by simp, by simpa using hkeys 4 0 (by decide)⟩
  · refine ⟨trivial, trivial, editQuiet_flat _ _ _, ?_, trivial, trivial, trivial⟩
    intro before _
    refine ⟨⟨editQuiet_flat _ _ _, trivial⟩, Or.inr ?_⟩
    intro a ha
    cases ha
    exact ⟨rfl, rfl, rfl⟩

/-- The callback of a modification of account 0 modifies account 1, and replaces member 7 of
account 0 by member 8. -/
def replaceAndPay : List (IndexCall (MemberAccount Nat Nat)) :=
  [.insert 0 (custodian 1 7), .insert 1 (custodian 1 9),
    .modify (.mk 0 [.mk 1 [] (custodian 1 9)] (custodian 1 8))]

/-- The index compares with the members of account 1, and account 0 stays listed under member 7. -/
theorem nested_modification_keeps_replaced_member :
    ∃ a, (runAll (accountMemberIndex reversedAddress) replaceAndPay
        (.empty {})).objects 0 = some a ∧ 7 ∉ a.getAccountMembers ∧
      (runAll (accountMemberIndex reversedAddress) replaceAndPay
        (.empty {})).secondary.accountToAccountMemberships.Lists 7 0 := by
  refine ⟨_, rfl, by decide, ?_⟩
  change (updateMemberships _ _ _ 0 (updateMemberships _ _ _ 1 _)).Lists 7 0
  rw [updateMemberships, lists_addAll, lists_dropAll]
  refine Or.inr ⟨?_, ?_⟩
  · rintro ⟨hmem, -⟩
    exact absurd (mem_of_mem_setDifference hmem) (by decide)
  · rw [updateMemberships, lists_addAll, lists_dropAll]
    exact Or.inr ⟨fun h => absurd h.2 (by decide), by decide⟩

end Runs

end Graphene.Chain
