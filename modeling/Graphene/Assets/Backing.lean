import Graphene.Assets.Registry
import Graphene.Lib.Links

/-!
# Backing assets

A market-issued asset may be backed by another one, but not in three levels.  The evaluators look at
the neighbours of the asset only, and this keeps every chain of backing assets at two links.
-/

namespace Graphene.Assets

open Protocol Lib Keyed Option Registry Function

/-! ## What the evaluators check -/

/-- An asset that may back a new asset: it exists, and the asset behind it is not market-issued. -/
structure MayBack (t : Registry) (j : AssetId) : Prop where
  registered : ∃ a, t.assets.find j = some a
  last : ∀ k, t.backing j = some k → t.backing k = none

variable {t : Registry} {j : AssetId} {cx : RegistryContext} {t' : Registry}
    {op : AssetUpdateBitasset} {newBacking : AssetObject} {i : AssetId}

variable {backing : AssetObject}

lemma mayBack_of (hj : t.assets.find j = some backing)
    (h : ∀ data, backing.isMarketIssued = true → t.getBitasset backing = .ok data →
      t.backing data.options.shortBackingAsset = none) : MayBack t j := by
  refine ⟨⟨backing, hj⟩, fun k hk => ?_⟩
  obtain ⟨a, b, d, ha, hb, hd, rfl⟩ := backing_eq_some.1 hk
  obtain rfl := mem_unique hj ha
  exact h d (by rw [AssetObject.isMarketIssued, hb]; rfl) (getBitasset_eq_ok.2 ⟨b, hb, hd⟩)

lemma checkBacking_inv {issuer : AccountId} (hj : t.assets.find j = some backing)
    (h : checkBacking t issuer backing = .ok ()) : MayBack t j := by
  refine mayBack_of hj fun data hisd hdata => ?_
  rw [checkBacking, if_pos hisd, hdata, ok_bind] at h
  obtain ⟨behind, hbeh, h⟩ := bind_eq_ok.1 h
  obtain ⟨_, hnot, -⟩ := bind_eq_ok.1 h
  rw [backing_eq_none_iff (getAsset_eq_ok.1 hbeh)]
  simpa using check_eq_ok.1 hnot

lemma AssetCreate.apply_inv {op : AssetCreate} (h : op.apply cx t = .ok t') :
    t' = op.doApply t ∧ ∀ o, op.bitassetOpts = some o → MayBack t o.shortBackingAsset := by
  have h := then_ok h
  obtain ⟨_, heval, h⟩ := bind_eq_ok.1 h
  cases h
  refine ⟨rfl, fun o ho => ?_⟩
  have heval := then_ok (then_ok (then_ok (then_ok (then_ok heval))))
  obtain ⟨_, hopts, -⟩ := bind_eq_ok.1 heval
  rw [ho] at hopts
  obtain ⟨backing, hbac, hopts⟩ := bind_eq_ok.1 hopts
  obtain ⟨_, hchk, -⟩ := bind_eq_ok.1 hopts
  exact checkBacking_inv (getAsset_eq_ok.1 hbac) hchk

section

variable (hfind : t.assets.find newBacking.id = some newBacking)
include hfind

lemma checkChildrenOfBitasset_inv (h : checkChildrenOfBitasset t op newBacking = .ok ())
    (hi : t.backing i = some op.assetToUpdate) : newBacking.isMarketIssued = false := by
  unfold checkChildrenOfBitasset at h
  split at h
  next hcore =>
    rw [hcore] at hfind
    exact (backing_eq_none_iff hfind).1 t.backing_core
  next hcore =>
    obtain ⟨a, b, d, -, -, hd, hback⟩ := backing_eq_some.1 hi
    have hmem : d ∈ t.bitassets.objects.filter fun d =>
        d.options.shortBackingAsset = op.assetToUpdate :=
      List.mem_filter.2 ⟨mem_of_find hd, decide_eq_true hback⟩
    have hchild := forM_eq_ok h d hmem
    obtain ⟨child, -, hchild⟩ := bind_eq_ok.1 hchild
    have hchild := then_ok (then_ok hchild)
    simpa using check_eq_ok.1 hchild

lemma checkByIssuer_inv {a : AssetObject} (h : checkByIssuer t op a newBacking = .ok ())
    (hi : t.backing i = some op.assetToUpdate) : newBacking.isMarketIssued = false := by
  unfold checkByIssuer at h
  split at h
  next hcom =>
    split at h
    next hisd =>
      obtain ⟨data, -, h⟩ := bind_eq_ok.1 h
      have h := then_ok h
      exact checkChildrenOfBitasset_inv hfind h hi
    next hisd => exact Bool.eq_false_of_not_eq_true hisd
  next hcom => exact checkChildrenOfBitasset_inv hfind h hi

end

lemma checkGrandparent_inv (hj : t.assets.find j = some newBacking)
    (h : checkGrandparent t newBacking = .ok ()) : MayBack t j := by
  refine mayBack_of hj fun data hisd hdata => ?_
  rw [checkGrandparent, if_pos hisd, hdata, ok_bind] at h
  split at h
  next hcore => exact (congrArg t.backing hcore).trans t.backing_core
  next hcore =>
    obtain ⟨behind, hbeh, h⟩ := bind_eq_ok.1 h
    rw [backing_eq_none_iff (getAsset_eq_ok.1 hbeh)]
    simpa using check_eq_ok.1 h

/-- A change of the backing asset of `i` to `j` that the evaluator accepts. -/
structure MayBackInstead (t : Registry) (i j : AssetId) : Prop extends MayBack t j where
  other : j ≠ i
  childless : ∀ x, t.backing x = some i → t.backing j = none

/-- An accepted update replaces the options of the asset's data object; its backing asset stays or
may be changed. -/
lemma AssetUpdateBitasset.apply_inv (h : op.apply cx t = .ok t') :
    ∃ a b, t.assets.find op.assetToUpdate = some a ∧ a.bitassetDataId = some b ∧
      t' = t.setOptions b op.newOptions ∧
      (t.backing op.assetToUpdate = some op.newOptions.shortBackingAsset ∨
        MayBackInstead t op.assetToUpdate op.newOptions.shortBackingAsset) := by
  have h := then_ok h
  obtain ⟨current, heval, h⟩ := bind_eq_ok.1 h
  cases h
  obtain ⟨a, hget, heval⟩ := bind_eq_ok.1 heval
  have heval := then_ok (then_ok heval)
  obtain ⟨d, hdata, heval⟩ := bind_eq_ok.1 heval
  have heval := then_ok (then_ok (then_ok (then_ok (then_ok heval))))
  obtain ⟨_, hcha, heval⟩ := bind_eq_ok.1 heval
  have heval := then_ok (then_ok heval)
  cases heval
  have ha := getAsset_eq_ok.1 hget
  obtain ⟨b, hb, hd⟩ := getBitasset_eq_ok.1 hdata
  refine ⟨a, b, ha, hb, by rw [show current.id = b from key_of_find hd], ?_⟩
  unfold checkBackingChange at hcha
  split at hcha
  next hsame => exact Or.inl (backing_eq_some.2 ⟨a, b, current, ha, hb, hd, hsame.symm⟩)
  next hsame =>
    right
    have hcha := then_ok (then_ok (then_ok hcha))
    obtain ⟨newBacking, hnew, hcha⟩ := bind_eq_ok.1 hcha
    obtain ⟨_, hself, hcha⟩ := bind_eq_ok.1 hcha
    have hcha := then_ok hcha
    obtain ⟨_, hiss, hgrand⟩ := bind_eq_ok.1 hcha
    have hfind := getAsset_eq_ok.1 hnew
    have hid : newBacking.id = op.newOptions.shortBackingAsset := key_of_find hfind
    have hown : a.id = op.assetToUpdate := key_of_find ha
    refine ⟨checkGrandparent_inv hfind hgrand, ?_, fun x hx => ?_⟩
    · rw [← hown]
      exact of_decide_eq_true (check_eq_ok.1 hself)
    · rw [backing_eq_none_iff hfind]
      exact checkByIssuer_inv (hid ▸ hfind) hiss hx

/-! ## The invariant -/

/-- Backing assets exist, and chains of them are short. -/
structure Layered (t : Registry) : Prop where
  registered : ∀ i j, t.backing i = some j → ∃ a, t.assets.find j = some a
  shallow : Shallow t.backing

lemma Layered.addAsset (h : Layered t) {r : Registry.Registration}
    (hdata : ∀ p, r.data = some p → MayBack t p.1.shortBackingAsset) : Layered (t.addAsset r) := by
  have hfree : ∀ i, t.backing i ≠ some t.assets.nextId := by
    intro i hi
    obtain ⟨a, ha⟩ := h.registered i _ hi
    rw [Store.find_nextId] at ha
    cases ha
  have hkept : ∀ {j a}, t.assets.find j = some a → (t.addAsset r).assets.find j = some a := by
    intro j a ha
    exact (Store.find_write_of_ne t.assets (t.newAsset r) (find_nextId_ne ha)).trans ha
  cases hr : r.data with
  | none =>
    have hsame : (t.addAsset r).backing = t.backing := by
      funext i
      rw [backing_addAsset, hr]
      split
      next hi =>
        rw [hi, backing, Store.find_nextId]
        rfl
      next => rfl
    refine ⟨fun i j hij => ?_, hsame ▸ h.shallow⟩
    rw [hsame] at hij
    obtain ⟨a, ha⟩ := h.registered i j hij
    exact ⟨a, hkept ha⟩
  | some p =>
    obtain ⟨⟨b, hb⟩, hlast⟩ := hdata p hr
    have hset : (t.addAsset r).backing =
        update t.backing t.assets.nextId (some p.1.shortBackingAsset) := by
      funext i
      rw [backing_addAsset, hr, update_apply]
      rfl
    constructor
    · intro i j hij
      rw [hset, update_apply] at hij
      split at hij
      next hi =>
        obtain rfl := some.inj hij
        exact ⟨b, hkept hb⟩
      next hi =>
        obtain ⟨a, ha⟩ := h.registered i j hij
        exact ⟨a, hkept ha⟩
    · -- nothing is backed by the new asset
      rw [hset]
      refine h.shallow.update (find_nextId_ne hb) (fun k hk => ⟨hlast k hk, ?_⟩)
        (fun x hx => (hfree x hx).elim) fun x y _ hy => hfree y hy
      rintro rfl
      exact hfree _ hk

lemma Layered.create (h : Layered t) {op : AssetCreate} (hop : op.apply cx t = .ok t') :
    Layered t' := by
  obtain ⟨rfl, hback⟩ := AssetCreate.apply_inv hop
  refine h.addAsset fun p hp => ?_
  obtain ⟨o, ho, rfl⟩ := map_eq_some_iff.1 hp
  exact hback o ho

lemma Layered.update (h : Layered t) (hop : op.apply cx t = .ok t') : Layered t' := by
  obtain ⟨a, b, ha, hb, rfl, hback⟩ := AssetUpdateBitasset.apply_inv hop
  obtain ⟨d, hd, -⟩ := t.owned _ a b ha hb
  have hast := (setOptions_of_find hd op.newOptions).1
  have hset : (t.setOptions b op.newOptions).backing =
      update t.backing op.assetToUpdate (some op.newOptions.shortBackingAsset) := by
    funext i
    rw [backing_setOptions ha hb, update_apply]
  have hlin : t.backing op.assetToUpdate ≠ none := by
    rw [backing_eq_some.2 ⟨a, b, d, ha, hb, hd, rfl⟩]
    exact some_ne_none _
  rcases hback with hsame | hnew
  · -- the backing asset stays
    have hid : (t.setOptions b op.newOptions).backing = t.backing := by
      rw [hset, ← hsame, update_eq_self]
    refine ⟨fun i j hij => ?_, hid ▸ h.shallow⟩
    rw [hast]
    exact h.registered i j (hid ▸ hij)
  · constructor
    · intro i j hij
      rw [hast]
      rw [hset, update_apply] at hij
      split at hij
      next hi =>
        obtain rfl := some.inj hij
        exact hnew.registered
      next hi => exact h.registered i j hij
    · rw [hset]
      refine h.shallow.update hnew.other (fun k hk => ⟨hnew.last k hk, ?_⟩) hnew.childless
        fun x y hx hy => hlin (h.shallow x y _ hx hy)
      rintro rfl
      exact hlin (hnew.last _ hk)

/-! ## Histories -/

structure InitialAsset where
  symbol : String
  precision : Nat
  issuer : AccountId
  options : AssetOptions
  isBitasset : Bool

def InitialAsset.registration (a : InitialAsset) : Registry.Registration where
  symbol := a.symbol
  precision := a.precision
  issuer := a.issuer
  options := a.options
  data := if a.isBitasset then some ({ minimumFeeds := 7 }, false) else none

/-- `init_genesis`: the core asset, the ids of special assets, and the initial assets. -/
structure GenesisAssets where
  coreSymbol : String
  corePrecision : Nat
  coreOptions : AssetOptions
  numSpecialAssets : Nat
  initialAssets : List InitialAsset

namespace GenesisAssets

variable (g : GenesisAssets)

def coreRegistry : Registry where
  assets := (Store.empty.write
    { id := 0
      symbol := g.coreSymbol
      precision := g.corePrecision
      issuer := grapheneNullAccount
      options := g.coreOptions
      bitassetDataId := none }).reserve g.numSpecialAssets
  bitassets := Store.empty
  core := ⟨_, rfl, rfl⟩
  owned := by
    intro i a b ha hb
    rcases List.mem_cons.1 (mem_of_find ha) with rfl | hmem
    · cases hb
    · cases hmem

def registry : Registry :=
  g.initialAssets.foldl (fun t a => t.addAsset a.registration) g.coreRegistry

lemma layered_coreRegistry : Layered g.coreRegistry := by
  have hnone : ∀ i, g.coreRegistry.backing i = none := by
    intro i
    cases hi : g.coreRegistry.backing i with
    | none => rfl
    | some j =>
      obtain ⟨a, b, d, -, -, hd, -⟩ := backing_eq_some.1 hi
      cases mem_of_find hd
  constructor
  · intro i j hij
    rw [hnone] at hij
    cases hij
  · intro i j k hij
    rw [hnone] at hij
    cases hij

lemma layered_registry : Layered g.registry := by
  suffices h : ∀ (l : List InitialAsset) (t : Registry), Layered t →
      Layered (l.foldl (fun t a => t.addAsset a.registration) t) from
    h g.initialAssets _ g.layered_coreRegistry
  intro l
  induction l with
  | nil => exact fun t ht => ht
  | cons a l ih =>
    intro t ht
    refine ih _ (ht.addAsset fun p hp => ?_)
    obtain ⟨-, rfl⟩ := ite_some_none_eq_some.1 hp
    obtain ⟨core, hcore, -⟩ := t.core
    refine ⟨⟨core, hcore⟩, fun k hk => ?_⟩
    rw [t.backing_core] at hk
    cases hk

end GenesisAssets

/-- A change of the registry by anything else: it neither makes an asset market-issued nor changes
a backing asset. -/
structure SameLinks (t t' : Registry) : Prop where
  registered : ∀ i, (t'.assets.find i).isSome = (t.assets.find i).isSome
  backing : t'.backing = t.backing

inductive RegistryReached : Registry → Prop where
  | genesis (g : GenesisAssets) : RegistryReached g.registry
  | create {t t' : Registry} (cx : RegistryContext) (op : AssetCreate) :
      RegistryReached t → op.apply cx t = .ok t' → RegistryReached t'
  | update {t t' : Registry} (cx : RegistryContext) (op : AssetUpdateBitasset) :
      RegistryReached t → op.apply cx t = .ok t' → RegistryReached t'
  | other {t t' : Registry} : RegistryReached t → SameLinks t t' → RegistryReached t'

lemma RegistryReached.layered (h : RegistryReached t) : Layered t := by
  induction h with
  | genesis g => exact g.layered_registry
  | create cx op _ hop ih => exact ih.create hop
  | update cx op _ hop ih => exact ih.update hop
  | @other t t' _ hsame ih =>
    constructor
    · intro i j hij
      rw [hsame.backing] at hij
      obtain ⟨a, ha⟩ := ih.registered i j hij
      rw [← isSome_iff_exists, hsame.registered, ha]
      rfl
    · rw [hsame.backing]
      exact ih.shallow

lemma Layered.registered_follow (h : Layered t) {k : Nat} (hi : ∃ a, t.assets.find i = some a)
    (hj : follow t.backing k i = some j) : ∃ b, t.assets.find j = some b := by
  induction k generalizing i with
  | zero =>
    obtain rfl := some.inj hj
    exact hi
  | succ k ih =>
    obtain ⟨i', hi', hj⟩ := bind_eq_some_iff.1 hj
    exact ih (h.registered i i' hi') hj

/-- Following the backing assets from an asset never returns to an asset already visited, and
reaches one that is not market-issued in at most two steps. -/
theorem backing_assets_shallow {t : Registry} (h : RegistryReached t) {i : AssetId}
    {a : AssetObject} (ha : t.assets.find i = some a) :
    (∀ m n j, m < n → follow t.backing m i = some j → follow t.backing n i ≠ some j) ∧
      ∃ k ≤ 2, ∃ j b, follow t.backing k i = some j ∧ t.assets.find j = some b ∧
        b.isMarketIssued = false := by
  have hlayered := h.layered
  refine ⟨fun m n j hmn hm => hlayered.shallow.follow_ne hmn hm, ?_⟩
  obtain ⟨k, hk, j, hj, hnone⟩ := hlayered.shallow.exists_end i
  obtain ⟨b, hb⟩ := hlayered.registered_follow ⟨a, ha⟩ hj
  exact ⟨k, hk, j, b, hj, hb, (backing_eq_none_iff hb).1 hnone⟩

def sampleRate : Price := ⟨⟨1, 0⟩, ⟨1, 1⟩⟩

def sampleGenesis : GenesisAssets where
  coreSymbol := "BTS"
  corePrecision := 5
  coreOptions := { coreExchangeRate := sampleRate }
  numSpecialAssets := 0
  initialAssets :=
    [{ symbol := "USD"
       precision := 4
       issuer := 10
       options := { coreExchangeRate := sampleRate }
       isBitasset := true }]

def sampleCreate : AssetCreate where
  issuer := 11
  symbol := "CNY"
  precision := 4
  commonOptions := { coreExchangeRate := sampleRate }
  bitassetOpts := some { shortBackingAsset := 1 }

def sampleContext : RegistryContext where
  accountExists := fun _ => true
  maximumAssetWhitelistAuthorities := 10
  blockInterval := 5
  hasSettledDebtOrder := fun _ => false

/-- The asset created last is backed by one that is backed by the core asset. -/
theorem sampleCreate_shallow :
    follow (sampleCreate.doApply sampleGenesis.registry).backing 2 2 = some 0 ∧
    ((∀ m n j, m < n → follow (sampleCreate.doApply sampleGenesis.registry).backing m 2 = some j →
        follow (sampleCreate.doApply sampleGenesis.registry).backing n 2 ≠ some j) ∧
      ∃ k ≤ 2, ∃ j b, follow (sampleCreate.doApply sampleGenesis.registry).backing k 2 = some j ∧
        (sampleCreate.doApply sampleGenesis.registry).assets.find j = some b ∧
        b.isMarketIssued = false) :=
  ⟨rfl, backing_assets_shallow
    (.create sampleContext sampleCreate (.genesis sampleGenesis) (by rfl)) rfl⟩

end Graphene.Assets
