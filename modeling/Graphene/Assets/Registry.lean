import Graphene.Lib.Keyed
import Graphene.Protocol.Asset

/-!
# The registry of assets

The creation of assets and the update of the options of market-issued assets, with all
hard forks passed.  An asset is market-issued when it has a data object of its own, whose
options name the asset that backs it.
-/

namespace Graphene.Assets

open Protocol Lib Option Store

/-- `asset_issuer_permission_flags`. -/
abbrev AssetFlags := BitVec 16

namespace AssetFlags

def whiteList : AssetFlags := 0x02
def globalSettle : AssetFlags := 0x20
def witnessFedAsset : AssetFlags := 0x80
def committeeFedAsset : AssetFlags := 0x100
def disableMcrUpdate : AssetFlags := 0x800
def disableIcrUpdate : AssetFlags := 0x1000
def disableMssrUpdate : AssetFlags := 0x2000
def disableBsrmUpdate : AssetFlags := 0x4000

/-- `ASSET_ISSUER_PERMISSION_MASK`: every bit has a meaning. -/
def permissionMask : AssetFlags := 0xFFFF

def uiaPermissionMask : AssetFlags := 0x64F

def nonUiaOnlyMask : AssetFlags := permissionMask ^^^ uiaPermissionMask

def hasAny (flags bits : AssetFlags) : Bool :=
  flags &&& bits ≠ 0

end AssetFlags

/-! ## Options -/

inductive RegistryError where
  | invalidSymbol
  | invalidOptions
  | invalidBitassetOptions
  | price (e : AssetError)
  | wrongCoreExchangeRate
  | precisionTooHigh
  | bitassetOptionsRequired
  | predictionMarketPermissions
  | responseMethodForPredictionMarket
  | flagNotAllowed
  | tooManyAuthorities
  | accountNotFound
  | assetNotFound
  | bitassetNotFound
  | symbolTaken
  | parentNotCreated
  | notIssuerOfParent
  | threeLevelsOfBitassets
  | notBackedByCore
  | intervalTooShort
  | predictionMarketPrecision
  | notMarketIssued
  | notIssuer
  | noPermission
  | globallySettled
  | individuallySettled
  | supplyNotZero
  | collateralFeesNotClaimed
  | backedByItself
  | backsItsBackingAsset
  | invalidatesCommitteeAsset
  | invalidatesChild
deriving DecidableEq

def grapheneMinCollateralRatio : Nat := 1001

def grapheneMaxCollateralRatio : Nat := 32000

structure BitassetOptions where
  feedLifetimeSec : Nat := 24 * 60 * 60
  minimumFeeds : Nat := 1
  forceSettlementDelaySec : Nat := 24 * 60 * 60
  forceSettlementOffsetPercent : Nat := 0
  maximumForceSettlementVolume : Nat := 2000
  shortBackingAsset : AssetId := 0
  initialCollateralRatio : Option Nat := none
  maintenanceCollateralRatio : Option Nat := none
  maximumShortSqueezeRatio : Option Nat := none
  marginCallFeeRatio : Option Nat := none
  forceSettleFeePercent : Option Nat := none
  blackSwanResponseMethod : Option Nat := none

namespace BitassetOptions

def ratioAllowed (ratio : Option Nat) : Bool :=
  ratio.all fun r => grapheneMinCollateralRatio ≤ r ∧ r ≤ grapheneMaxCollateralRatio

def validate (o : BitassetOptions) : Except RegistryError Unit :=
  check (0 < o.minimumFeeds
    && o.forceSettlementOffsetPercent ≤ graphene100Percent
    && o.maximumForceSettlementVolume ≤ graphene100Percent
    && o.marginCallFeeRatio.all (· ≤ grapheneMaxCollateralRatio)
    && ratioAllowed o.initialCollateralRatio
    && ratioAllowed o.maintenanceCollateralRatio
    && ratioAllowed o.maximumShortSqueezeRatio
    && o.forceSettleFeePercent.all (· ≤ graphene100Percent)
    && o.blackSwanResponseMethod.all (· < 4)) .invalidBitassetOptions

/-- `get_black_swan_response_method`; the number 0 is `global_settlement`, 1 `no_settlement`, 2
`individual_settlement_to_fund` and 3 `individual_settlement_to_order`. -/
def getBlackSwanResponseMethod (o : BitassetOptions) : Nat :=
  o.blackSwanResponseMethod.getD 0

end BitassetOptions

/-- `asset_options`, without the description. -/
structure AssetOptions where
  maxSupply : Int := grapheneMaxShareSupply
  marketFeePercent : Nat := 0
  maxMarketFee : Int := grapheneMaxShareSupply
  issuerPermissions : AssetFlags := 0
  flags : AssetFlags := 0
  coreExchangeRate : Price
  whitelistAuthorities : List AccountId := []
  blacklistAuthorities : List AccountId := []
  whitelistMarkets : List AssetId := []
  blacklistMarkets : List AssetId := []
  rewardPercent : Option Nat := none
  takerFeePercent : Option Nat := none

namespace AssetOptions

open AssetFlags

def validate (o : AssetOptions) : Except RegistryError Unit := do
  check (0 < o.maxSupply && o.maxSupply ≤ grapheneMaxShareSupply
    && o.marketFeePercent ≤ graphene100Percent
    && o.takerFeePercent.all (· ≤ graphene100Percent)
    && 0 ≤ o.maxMarketFee && o.maxMarketFee ≤ grapheneMaxShareSupply
    && !hasAny o.issuerPermissions (~~~ permissionMask)
    && !hasAny o.flags globalSettle
    && o.flags &&& (witnessFedAsset ||| committeeFedAsset) ≠ witnessFedAsset ||| committeeFedAsset)
    .invalidOptions
  o.coreExchangeRate.validate.mapError .price
  check ((o.coreExchangeRate.base.assetId = 0 || o.coreExchangeRate.quote.assetId = 0)
    && ((o.whitelistAuthorities.isEmpty && o.blacklistAuthorities.isEmpty)
      || hasAny o.flags whiteList)
    && o.whitelistMarkets.all (· ∉ o.blacklistMarkets)
    && o.rewardPercent.all (· ≤ graphene100Percent)) .invalidOptions

def validateFlags (o : AssetOptions) (isMarketIssued : Bool) : Except RegistryError Unit :=
  check (!hasAny o.flags (~~~ permissionMask)
    && !hasAny o.flags disableMcrUpdate
    && !hasAny o.flags disableIcrUpdate
    && !hasAny o.flags disableMssrUpdate
    && !hasAny o.flags disableBsrmUpdate
    && (isMarketIssued || !hasAny o.flags (~~~ uiaPermissionMask))) .flagNotAllowed

end AssetOptions

/-! ## Objects -/

/-- `asset_object` with its `asset_dynamic_data_object`. -/
structure AssetObject where
  id : AssetId
  symbol : String
  precision : Nat
  issuer : AccountId
  options : AssetOptions
  bitassetDataId : Option Nat
  currentSupply : Int := 0
  accumulatedCollateralFees : Int := 0

def AssetObject.isMarketIssued (a : AssetObject) : Bool :=
  a.bitassetDataId.isSome

/-- `asset_bitasset_data_object`; the feeds and the settlement fund do not matter here. -/
structure BitassetObject where
  id : Nat
  assetId : AssetId
  options : BitassetOptions
  isPredictionMarket : Bool
  isGloballySettled : Bool := false
  individualSettlementDebt : Int := 0

def BitassetObject.isIndividuallySettledToFund (b : BitassetObject) : Bool :=
  b.individualSettlementDebt ≠ 0 && b.options.getBlackSwanResponseMethod = 2

/-- The assets and the data objects of market-issued assets.  The core asset is not market-issued,
and a data object belongs to the asset that refers to it. -/
structure Registry where
  assets : Store AssetObject.id
  bitassets : Store BitassetObject.id
  core : ∃ a, assets.find 0 = some a ∧ a.bitassetDataId = none
  owned : ∀ i a b, assets.find i = some a → a.bitassetDataId = some b →
    ∃ d, bitassets.find b = some d ∧ d.assetId = i

variable {t : Registry} {i : AssetId} {a : AssetObject} {d : BitassetObject} {b : Nat}

namespace Registry

/-- `asset_id_type::operator()`. -/
def getAsset (t : Registry) (i : AssetId) : Except RegistryError AssetObject :=
  match t.assets.find i with
  | none => .error .assetNotFound
  | some a => .ok a

/-- `bitasset_data` of a market-issued asset. -/
def getBitasset (t : Registry) (a : AssetObject) : Except RegistryError BitassetObject :=
  match a.bitassetDataId.bind t.bitassets.find with
  | none => .error .bitassetNotFound
  | some d => .ok d

def backing (t : Registry) (i : AssetId) : Option AssetId :=
  ((t.assets.find i).bind fun a => a.bitassetDataId.bind t.bitassets.find).map fun d =>
    d.options.shortBackingAsset

lemma getAsset_eq_ok : t.getAsset i = .ok a ↔ t.assets.find i = some a := by
  unfold getAsset
  cases t.assets.find i with
  | none => exact iff_of_false nofun nofun
  | some b => simp

lemma getBitasset_eq_ok :
    t.getBitasset a = .ok d ↔ ∃ b, a.bitassetDataId = some b ∧ t.bitassets.find b = some d := by
  rw [← bind_eq_some_iff]
  unfold getBitasset
  cases a.bitassetDataId.bind t.bitassets.find with
  | none => exact iff_of_false nofun nofun
  | some b => simp

lemma backing_eq_some {j : AssetId} :
    t.backing i = some j ↔ ∃ a b d, t.assets.find i = some a ∧ a.bitassetDataId = some b ∧
      t.bitassets.find b = some d ∧ d.options.shortBackingAsset = j := by
  simp only [backing, map_eq_some_iff, bind_eq_some_iff]
  constructor
  · rintro ⟨d, ⟨a, ha, b, hb, hd⟩, hj⟩
    exact ⟨a, b, d, ha, hb, hd, hj⟩
  · rintro ⟨a, b, d, ha, hb, hd, hj⟩
    exact ⟨d, ⟨a, ha, b, hb, hd⟩, hj⟩

lemma backing_eq_none_iff (ha : t.assets.find i = some a) :
    t.backing i = none ↔ a.isMarketIssued = false := by
  unfold backing AssetObject.isMarketIssued
  cases hb : a.bitassetDataId with
  | none => simp [ha, hb]
  | some b =>
    obtain ⟨d, hd, -⟩ := t.owned i a b ha hb
    simp [ha, hb, hd]

lemma backing_core (t : Registry) : t.backing 0 = none := by
  obtain ⟨a, ha, hnone⟩ := t.core
  rw [backing_eq_none_iff ha, AssetObject.isMarketIssued, hnone]
  rfl

/-! ## Changes of the registry -/

lemma find_nextId_ne (h : t.assets.find i = some a) : i ≠ t.assets.nextId :=
  Nat.ne_of_lt (lt_nextId h)

structure Registration where
  symbol : String
  precision : Nat
  issuer : AccountId
  options : AssetOptions
  data : Option (BitassetOptions × Bool)

def newAsset (t : Registry) (r : Registration) : AssetObject where
  id := t.assets.nextId
  symbol := r.symbol
  precision := r.precision
  issuer := r.issuer
  options := r.options
  bitassetDataId := r.data.map fun _ => t.bitassets.nextId

def newBitasset (t : Registry) (p : BitassetOptions × Bool) : BitassetObject where
  id := t.bitassets.nextId
  assetId := t.assets.nextId
  options := p.1
  isPredictionMarket := p.2

def addAsset (t : Registry) (r : Registration) : Registry where
  assets := t.assets.write (t.newAsset r)
  bitassets := r.data.elim t.bitassets fun p => t.bitassets.write (t.newBitasset p)
  core := by
    obtain ⟨a, ha, hnone⟩ := t.core
    refine ⟨a, ?_, hnone⟩
    rw [find_write_of_ne _ (t.newAsset r) (find_nextId_ne ha), ha]
  owned := by
    intro i a b ha hb
    by_cases hi : i = t.assets.nextId
    · -- the new asset owns the new data object
      subst hi
      obtain rfl := Option.mem_unique ha (find_write_self _ (t.newAsset r))
      obtain ⟨p, hp, rfl⟩ := map_eq_some_iff.1 hb
      rw [hp]
      exact ⟨t.newBitasset p, find_write_self _ (t.newBitasset p), rfl⟩
    · rw [find_write_of_ne _ (t.newAsset r) hi] at ha
      obtain ⟨d, hd, hid⟩ := t.owned i a b ha hb
      refine ⟨d, ?_, hid⟩
      cases r.data with
      | none => exact hd
      | some p =>
        exact (find_write_of_ne _ (t.newBitasset p) (Nat.ne_of_lt (lt_nextId hd))).trans hd

def setOptions (t : Registry) (b : Nat) (options : BitassetOptions) : Registry :=
  match h : t.bitassets.find b with
  | none => t
  | some d =>
    { t with
      bitassets := t.bitassets.write { d with options := options }
      owned := by
        intro i a b' ha hb'
        obtain ⟨d', hd', hid⟩ := t.owned i a b' ha hb'
        by_cases hsame : b' = d.id
        · obtain rfl : b' = b := hsame.trans (Keyed.key_of_find h)
          obtain rfl := Option.mem_unique h hd'
          refine ⟨{ d with options := options }, ?_, hid⟩
          rw [hsame]
          exact find_write_self _ { d with options := options }
        · exact ⟨d', (find_write_of_ne _ { d with options := options } hsame).trans hd', hid⟩ }

lemma backing_addAsset (r : Registration) :
    (t.addAsset r).backing i = if i = t.assets.nextId
      then r.data.map fun p => p.1.shortBackingAsset else t.backing i := by
  by_cases hi : i = t.assets.nextId
  · subst hi
    have hnew : (t.addAsset r).assets.find t.assets.nextId = some (t.newAsset r) :=
      find_write_self _ (t.newAsset r)
    rw [if_pos rfl, backing, hnew]
    cases hdata : r.data with
    | none => simp [newAsset, hdata]
    | some p =>
      have hfind : (t.addAsset r).bitassets.find t.bitassets.nextId = some (t.newBitasset p) := by
        simp only [addAsset, hdata]
        exact find_write_self _ (t.newBitasset p)
      simp [newAsset, hdata, hfind, newBitasset]
  · have hold : (t.addAsset r).assets.find i = t.assets.find i :=
      find_write_of_ne _ (t.newAsset r) hi
    rw [if_neg hi]
    ext j
    simp only [backing_eq_some, hold]
    refine exists_congr fun a => exists_congr fun b => exists_congr fun d => ?_
    refine and_congr_right fun ha => and_congr_right fun hb => and_congr_left fun _ => ?_
    obtain ⟨d', hd', -⟩ := t.owned i a b ha hb
    have hkept : (t.addAsset r).bitassets.find b = t.bitassets.find b := by
      cases hdata : r.data with
      | none => simp [addAsset, hdata]
      | some p =>
        simp only [addAsset, hdata]
        exact find_write_of_ne _ (t.newBitasset p) (Nat.ne_of_lt (lt_nextId hd'))
    rw [hkept]

lemma setOptions_of_find (h : t.bitassets.find b = some d) (options : BitassetOptions) :
    (t.setOptions b options).assets = t.assets ∧
      (t.setOptions b options).bitassets = t.bitassets.write { d with options := options } := by
  unfold setOptions
  split
  next hnone => cases h.symm.trans hnone
  next d' hd' =>
    obtain rfl := mem_unique h hd'
    exact ⟨rfl, rfl⟩

lemma backing_setOptions (ha : t.assets.find i = some a) (hb : a.bitassetDataId = some b)
    (options : BitassetOptions) (j : AssetId) : (t.setOptions b options).backing j =
      if j = i then some options.shortBackingAsset else t.backing j := by
  obtain ⟨d, hd, hid⟩ := t.owned i a b ha hb
  obtain ⟨hast, hbit⟩ := setOptions_of_find hd options
  have hkey : d.id = b := Keyed.key_of_find hd
  by_cases hj : j = i
  · subst hj
    rw [if_pos rfl, backing_eq_some]
    refine ⟨a, b, { d with options := options }, by rw [hast, ha], hb, ?_, rfl⟩
    rw [hbit, ← hkey]
    exact find_write_self _ { d with options := options }
  · rw [if_neg hj]
    ext k
    simp only [backing_eq_some, hast]
    refine exists_congr fun a' => exists_congr fun b' => exists_congr fun d' => ?_
    refine and_congr_right fun ha' => and_congr_right fun hb' => and_congr_left fun _ => ?_
    -- the data object of another asset is another one
    have hne : b' ≠ d.id := by
      rintro rfl
      obtain ⟨d'', hd'', hid'⟩ := t.owned j a' _ ha' hb'
      rw [hkey, hd] at hd''
      cases hd''
      exact hj (hid'.symm.trans hid)
    rw [hbit, find_write_of_ne t.bitassets { d with options := options } hne]

end Registry

structure AssetCreate where
  issuer : AccountId
  symbol : String
  precision : Nat
  commonOptions : AssetOptions
  bitassetOpts : Option BitassetOptions := none
  isPredictionMarket : Bool := false

structure AssetUpdateBitasset where
  issuer : AccountId
  assetToUpdate : AssetId
  newOptions : BitassetOptions

structure RegistryContext where
  accountExists : AccountId → Bool
  maximumAssetWhitelistAuthorities : Nat
  blockInterval : Nat
  hasSettledDebtOrder : AssetId → Bool

/-! ## Creation -/

def isValidSymbol (symbol : String) : Bool :=
  let cs := symbol.toList
  3 ≤ cs.length && cs.take 3 ≠ ['B', 'I', 'T'] && cs.length ≤ 16
    && cs.head?.any Char.isAlpha && cs.getLast?.any Char.isAlphanum
    && cs.all (fun c => c.isUpper || c.isDigit || c = '.') && cs.count '.' ≤ 1

def parentSymbol (symbol : String) : Option String :=
  if '.' ∈ symbol.toList
    then some (String.ofList ((symbol.toList.reverse.dropWhile (· ≠ '.')).drop 1).reverse)
    else none

/-- A prediction market can be settled globally and has no response method. -/
def checkPredictionMarket (permissions : AssetFlags) (o : BitassetOptions) :
    Except RegistryError Unit := do
  check (permissions.hasAny .globalSettle && !permissions.hasAny .disableBsrmUpdate)
    .predictionMarketPermissions
  check o.blackSwanResponseMethod.isNone .responseMethodForPredictionMarket

def AssetCreate.validate (op : AssetCreate) : Except RegistryError Unit := do
  check (isValidSymbol op.symbol) .invalidSymbol
  op.commonOptions.validate
  check (!op.commonOptions.issuerPermissions.hasAny
      (AssetFlags.nonUiaOnlyMask &&& ~~~ (AssetFlags.witnessFedAsset ||| AssetFlags.committeeFedAsset))
    || op.bitassetOpts.isSome) .bitassetOptionsRequired
  check (!op.isPredictionMarket || op.bitassetOpts.isSome) .bitassetOptionsRequired
  op.bitassetOpts.forM fun o => do
    if op.isPredictionMarket then checkPredictionMarket op.commonOptions.issuerPermissions o
    o.validate
  let dummy ← (Asset.mul ⟨1, 0⟩ op.commonOptions.coreExchangeRate).mapError .price
  check (dummy.assetId = 1) .wrongCoreExchangeRate
  check (op.precision ≤ 12) .precisionTooHigh

/-- An asset with a dot in its symbol is created by the issuer of the asset named before the
dot. -/
def checkParent (t : Registry) (op : AssetCreate) : Except RegistryError Unit :=
  match parentSymbol op.symbol with
  | none => .ok ()
  | some parent =>
    match t.assets.objects.find? fun a => a.symbol = parent with
    | none => .error .parentNotCreated
    | some p => check (p.issuer = op.issuer) .notIssuerOfParent

/-- The committee's assets are backed by the core asset, directly or through another asset. -/
def checkCommittee (issuer : AccountId) (i : AssetId) : Except RegistryError Unit :=
  check (issuer ≠ grapheneCommitteeAccount || i = 0) .notBackedByCore

/-- The asset that backs a new asset may itself be backed by one that is not market-issued. -/
def checkBacking (t : Registry) (issuer : AccountId) (backing : AssetObject) :
    Except RegistryError Unit :=
  if backing.isMarketIssued then do
    let data ← t.getBitasset backing
    let backingBacking ← t.getAsset data.options.shortBackingAsset
    check (!backingBacking.isMarketIssued) .threeLevelsOfBitassets
    checkCommittee issuer backingBacking.id
  else checkCommittee issuer backing.id

variable (cx : RegistryContext)

def checkBitassetOpts (t : Registry) (op : AssetCreate)
    (o : BitassetOptions) : Except RegistryError Unit := do
  let backing ← t.getAsset o.shortBackingAsset
  checkBacking t op.issuer backing
  check (cx.blockInterval < o.feedLifetimeSec && cx.blockInterval < o.forceSettlementDelaySec)
    .intervalTooShort
  check (!op.isPredictionMarket || op.precision = backing.precision) .predictionMarketPrecision

def AssetCreate.doEvaluate (t : Registry) (op : AssetCreate) :
    Except RegistryError Unit := do
  op.commonOptions.validateFlags op.bitassetOpts.isSome
  check (op.commonOptions.whitelistAuthorities.length ≤ cx.maximumAssetWhitelistAuthorities
    && op.commonOptions.blacklistAuthorities.length ≤ cx.maximumAssetWhitelistAuthorities)
    .tooManyAuthorities
  check (op.commonOptions.whitelistAuthorities.all cx.accountExists
    && op.commonOptions.blacklistAuthorities.all cx.accountExists) .accountNotFound
  check (t.assets.objects.all fun a => a.symbol ≠ op.symbol) .symbolTaken
  checkParent t op
  op.bitassetOpts.forM (checkBitassetOpts cx t op)
  check (!op.isPredictionMarket || op.bitassetOpts.isSome) .bitassetOptionsRequired

/-- The side of the core exchange rate that is not the core asset becomes the new asset. -/
def AssetCreate.adjustedOptions (op : AssetCreate) (i : AssetId) : AssetOptions :=
  let rate := op.commonOptions.coreExchangeRate
  { op.commonOptions with
    coreExchangeRate :=
      if rate.base.assetId = 0
        then { rate with quote := { rate.quote with assetId := i } }
        else { rate with base := { rate.base with assetId := i } } }

def AssetCreate.doApply (t : Registry) (op : AssetCreate) : Registry :=
  t.addAsset
    { symbol := op.symbol
      precision := op.precision
      issuer := op.issuer
      options := op.adjustedOptions t.assets.nextId
      data := op.bitassetOpts.map fun o => (o, op.isPredictionMarket) }

def AssetCreate.apply (t : Registry) (op : AssetCreate) :
    Except RegistryError Registry := do
  op.validate
  op.doEvaluate cx t
  pure (op.doApply t)

/-! ## Update of the options -/

def checkParameter (permissions bit : AssetFlags) (old new : Option Nat) :
    Except RegistryError Unit :=
  check (!permissions.hasAny bit || old = new) .noPermission

def checkResponseMethod (a : AssetObject) (current : BitassetObject)
    (new : Nat) : Except RegistryError Unit :=
  if current.options.getBlackSwanResponseMethod = new then .ok ()
  else do
    check (!a.options.issuerPermissions.hasAny .disableBsrmUpdate) .noPermission
    check (!current.isGloballySettled) .globallySettled
    check (!(current.options.getBlackSwanResponseMethod = 2 && current.isIndividuallySettledToFund))
      .individuallySettled
    check (!(current.options.getBlackSwanResponseMethod = 3 && cx.hasSettledDebtOrder a.id))
      .individuallySettled

section

variable (t) (op : AssetUpdateBitasset)

/-- What an asset that is backed by the updated asset demands of the new backing asset. -/
def checkChild (newBacking : AssetObject) (data : BitassetObject) : Except RegistryError Unit := do
  let child ← t.getAsset data.assetId
  check (child.id ≠ op.newOptions.shortBackingAsset) .backsItsBackingAsset
  check (child.issuer ≠ grapheneCommitteeAccount) .invalidatesCommitteeAsset
  check (!newBacking.isMarketIssued) .invalidatesChild

def checkChildrenOfBitasset (newBacking : AssetObject) : Except RegistryError Unit :=
  if newBacking.id = 0 then .ok ()
  else (t.bitassets.objects.filter fun d => d.options.shortBackingAsset = op.assetToUpdate).forM
    (checkChild t op newBacking)

def checkByIssuer (a newBacking : AssetObject) : Except RegistryError Unit :=
  if a.issuer = grapheneCommitteeAccount then
    if newBacking.isMarketIssued then do
      let data ← t.getBitasset newBacking
      check (data.options.shortBackingAsset = 0) .notBackedByCore
      checkChildrenOfBitasset t op newBacking
    else check (newBacking.id = 0) .notBackedByCore
  else checkChildrenOfBitasset t op newBacking

/-- The new backing asset must not be backed by a market-issued asset. -/
def checkGrandparent (newBacking : AssetObject) : Except RegistryError Unit :=
  if newBacking.isMarketIssued then do
    let data ← t.getBitasset newBacking
    if data.options.shortBackingAsset = 0 then .ok ()
    else do
      let backingBacking ← t.getAsset data.options.shortBackingAsset
      check (!backingBacking.isMarketIssued) .threeLevelsOfBitassets
  else .ok ()

def checkNewBacking (a : AssetObject) (current : BitassetObject) : Except RegistryError Unit := do
  check (!current.isGloballySettled) .globallySettled
  check (a.currentSupply = 0) .supplyNotZero
  check (a.accumulatedCollateralFees = 0) .collateralFeesNotClaimed
  let newBacking ← t.getAsset op.newOptions.shortBackingAsset
  check (op.newOptions.shortBackingAsset ≠ a.id) .backedByItself
  check (!current.isPredictionMarket || a.precision = newBacking.precision)
    .predictionMarketPrecision
  checkByIssuer t op a newBacking
  checkGrandparent t newBacking

def checkBackingChange (a : AssetObject) (current : BitassetObject) : Except RegistryError Unit :=
  if op.newOptions.shortBackingAsset = current.options.shortBackingAsset then .ok ()
  else checkNewBacking t op a current

end

def AssetUpdateBitasset.doEvaluate (t : Registry)
    (op : AssetUpdateBitasset) : Except RegistryError BitassetObject := do
  let a ← t.getAsset op.assetToUpdate
  check a.isMarketIssued .notMarketIssued
  check (op.issuer = a.issuer) .notIssuer
  let current ← t.getBitasset a
  check (!current.isPredictionMarket || op.newOptions.blackSwanResponseMethod.isNone)
    .responseMethodForPredictionMarket
  checkParameter a.options.issuerPermissions .disableMcrUpdate
    current.options.maintenanceCollateralRatio op.newOptions.maintenanceCollateralRatio
  checkParameter a.options.issuerPermissions .disableIcrUpdate
    current.options.initialCollateralRatio op.newOptions.initialCollateralRatio
  checkParameter a.options.issuerPermissions .disableMssrUpdate
    current.options.maximumShortSqueezeRatio op.newOptions.maximumShortSqueezeRatio
  checkResponseMethod cx a current op.newOptions.getBlackSwanResponseMethod
  checkBackingChange t op a current
  check (cx.blockInterval < op.newOptions.feedLifetimeSec) .intervalTooShort
  check (cx.blockInterval < op.newOptions.forceSettlementDelaySec) .intervalTooShort
  pure current

/-- The options are replaced.  The feeds that are reset and the margin calls that follow change
neither the options nor which assets are market-issued. -/
def AssetUpdateBitasset.apply (t : Registry) (op : AssetUpdateBitasset) :
    Except RegistryError Registry := do
  op.newOptions.validate
  let current ← op.doEvaluate cx t
  pure (t.setOptions current.id op.newOptions)

end Graphene.Assets
