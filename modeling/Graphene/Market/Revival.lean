import Graphene.Market.CollateralBids
import Graphene.Market.StateRules
import Graphene.Protocol.Rounding

/-!
# Reviving a globally settled asset

`process_bids` goes over the bids twice: the first loop tests bids until they cover the supply, and
the second one executes them.  The two agree on where to stop, so debt and fund are used up exactly
by the last bid.  That bid gets another amount of debt and of the fund than it was tested with; what
it gets is at least as well collateralized, because the fund never had less than its part for the
supply.
-/

namespace Graphene.Market

open Protocol Lib List Keyed MarketState
open BitassetData (accepts coveringBids executeBids isSafe)
open CollateralBid (bidder debtIn)

variable {s s' : MarketState} {b : BitassetData} {bid : CollateralBid} {supply : Int} {ratio : Nat}

def covers (supply : Int) (l : List CollateralBid) : Int :=
  (l.map fun bid => (bid.debtIn supply).amount).sum

lemma covers_cons (l : List CollateralBid) :
    covers supply (bid :: l) = (bid.debtIn supply).amount + covers supply l := by
  rfl

lemma coveringBids_eq {bids : List CollateralBid} (covered : Int)
    (hacc : ∀ bid ∈ bids, ∃ r, b.accepts ratio supply bid = .ok r) : ∃ l rest, bids = l ++ rest ∧
      b.coveringBids ratio supply bids covered = .ok (l, covered + covers supply l) ∧
      (∀ bid ∈ l, b.accepts ratio supply bid = .ok true) ∧
      ∀ l1 bid l2, l = l1 ++ bid :: l2 → covered + covers supply l1 < supply := by
  have hstop : ∀ l1 bid l2, ([] : List CollateralBid) = l1 ++ bid :: l2 →
      covered + covers supply l1 < supply := by
    intro l1 bid l2 h
    cases l1 <;> cases h
  induction bids generalizing covered with
  | nil => exact ⟨[], [], rfl, by simp [coveringBids, covers], nofun, hstop⟩
  | cons bid bids ih =>
    by_cases hless : covered < supply
    · obtain ⟨r, hr⟩ := hacc bid mem_cons_self
      cases r with
      | false =>
        refine ⟨[], bid :: bids, rfl, ?_, nofun, hstop⟩
        simp [coveringBids, covers, hless, hr]
      | true =>
        obtain ⟨l, rest, heq, hrun, hall, hbefore⟩ := ih (covered + (bid.debtIn supply).amount)
          (forall_mem_cons.1 hacc).2
          (fun l1 x l2 h => by cases l1 <;> cases h)
        refine ⟨bid :: l, rest, by rw [heq, cons_append], ?_, ?_, ?_⟩
        · simp only [coveringBids, if_pos hless, hr, ok_bind, if_true, hrun]
          rw [covers_cons, ← add_assoc]
          rfl
        · intro x hx
          rcases mem_cons.1 hx with rfl | hx
          · exact hr
          · exact hall x hx
        · intro l1 x l2 h
          cases l1 with
          | nil => simpa [covers] using hless
          | cons y l1 =>
            obtain ⟨rfl, htail⟩ := cons.inj h
            have := hbefore l1 x l2 htail
            rw [covers_cons]
            omega
    · refine ⟨[], bid :: bids, rfl, ?_, nofun, hstop⟩
      simp [coveringBids, covers, hless]

/-- A globally settled asset with a feed, whose fund has its part for the supply, and the bids for
it. -/
structure Revivable (s : MarketState) (b : BitassetData) : Prop where
  found : s.bitassets.find b.assetId = some b
  notPrediction : b.isPredictionMarket = false
  feed : ¬ b.currentFeed.settlementPrice.IsNull
  base : b.settlementPrice.base.assetId = b.assetId
  quote : b.settlementPrice.quote.assetId = b.shortBackingAsset
  assets : b.assetId ≠ b.shortBackingAsset
  base_pos : 0 < b.settlementPrice.base.amount
  quote_pos : 0 < b.settlementPrice.quote.amount
  fund_le : b.settlementFund ≤ grapheneMaxShareSupply
  supply_nonneg : 0 ≤ s.currentSupply.get b.assetId
  solvent : s.currentSupply.get b.assetId * b.settlementPrice.quote.amount
    ≤ b.settlementFund * b.settlementPrice.base.amount
  bids : ∀ bid ∈ s.bids.objects, bid.debtCovered.assetId = b.assetId →
    bid.additionalCollateral.assetId = b.shortBackingAsset ∧
      0 < bid.additionalCollateral.amount ∧ 0 < bid.debtCovered.amount
  oneBid : ∀ x ∈ s.bids.objects, ∀ y ∈ s.bids.objects, x.debtCovered.assetId = b.assetId →
    y.debtCovered.assetId = b.assetId → x.bidder = y.bidder → x = y
  noCalls : ∀ c ∈ s.callOrders.objects, c.debtType ≠ b.assetId

structure IsBid (b : BitassetData) (bid : CollateralBid) : Prop where
  debtAsset : bid.debtCovered.assetId = b.assetId
  collateralAsset : bid.additionalCollateral.assetId = b.shortBackingAsset
  collateral_pos : 0 < bid.additionalCollateral.amount
  debt_pos : 0 < bid.debtCovered.amount

lemma mem_bidsByPrice {a : AssetId} :
    bid ∈ s.bidsByPrice a ↔ bid ∈ s.bids.objects ∧ bid.debtCovered.assetId = a := by
  rw [bidsByPrice, mem_insertionSort, mem_filter, decide_eq_true_eq]
  rfl

lemma Revivable.isBid (h : Revivable s b) (hbid : bid ∈ s.bidsByPrice b.assetId) : IsBid b bid := by
  obtain ⟨hmem, hasset⟩ := mem_bidsByPrice.1 hbid
  obtain ⟨hcol, hpos, hdebt⟩ := h.bids bid hmem hasset
  exact ⟨hasset, hcol, hpos, hdebt⟩

lemma nodup_bidsByPrice (s : MarketState) (a : AssetId) :
    ((s.bidsByPrice a).map CollateralBid.id).Nodup := by
  have hperm : (s.bidsByPrice a).Perm
      (s.bids.objects.filter fun bid => bid.invSwanPrice.quote.assetId = a) :=
    perm_insertionSort _ _
  rw [(hperm.map CollateralBid.id).nodup_iff]
  exact (filter_sublist.map CollateralBid.id).nodup s.bids.nodup

lemma debtIn_assetId : (bid.debtIn supply).assetId = bid.debtCovered.assetId := by
  unfold debtIn
  split <;> rfl

lemma debtIn_le : (bid.debtIn supply).amount ≤ supply := by
  unfold debtIn
  split
  · exact le_rfl
  · omega

lemma debtIn_pos (hsupply : 0 < supply) (h : 0 < bid.debtCovered.amount) :
    0 < (bid.debtIn supply).amount := by
  unfold debtIn
  split
  · exact hsupply
  · exact h

/-- The part of the fund for an amount of debt, as it was at the global settlement. -/
def BitassetData.fundFor (b : BitassetData) (debt : Int) : Int :=
  debt * b.settlementPrice.quote.amount / b.settlementPrice.base.amount

section

variable (h : Revivable s b) (hbid : IsBid b bid)
include h hbid

lemma Revivable.mul_eq :
    (bid.debtIn (s.currentSupply.get b.assetId)).mul b.settlementPrice
      = .ok ⟨b.fundFor (bid.debtIn (s.currentSupply.get b.assetId)).amount, b.shortBackingAsset⟩ := by
  have hasset : (bid.debtIn (s.currentSupply.get b.assetId)).assetId
      = b.settlementPrice.base.assetId := by
    rw [debtIn_assetId, hbid.debtAsset, h.base]
  rw [Asset.mul, Asset.mulBy_base hasset, Asset.scale_eq_ok]
  refine ⟨h.base_pos, ?_, by rw [h.quote]; rfl⟩
  -- the debt is at most the supply, and the fund suffices for the supply
  apply Int.le_trans _ h.fund_le
  apply Int.ediv_le_of_le_mul h.base_pos
  calc (bid.debtIn (s.currentSupply.get b.assetId)).amount * b.settlementPrice.quote.amount
      ≤ s.currentSupply.get b.assetId * b.settlementPrice.quote.amount :=
        mul_le_mul_of_nonneg_right (debtIn_le) h.quote_pos.le
    _ ≤ b.settlementFund * b.settlementPrice.base.amount := h.solvent

lemma Revivable.collateralFor_eq :
    b.collateralFor (s.currentSupply.get b.assetId) bid
      = .ok ⟨b.fundFor (bid.debtIn (s.currentSupply.get b.assetId)).amount
        + bid.additionalCollateral.amount, b.shortBackingAsset⟩ := by
  rw [BitassetData.collateralFor, h.mul_eq hbid, ok_bind, Asset.add_eq_ok]
  exact ⟨hbid.collateralAsset.symm, rfl⟩

lemma Revivable.accepts_eq (ratio : Nat) :
    ∃ r, b.accepts ratio (s.currentSupply.get b.assetId) bid = .ok r := by
  have hast : b.shortBackingAsset ≠ (bid.debtIn (s.currentSupply.get b.assetId)).assetId := by
    rw [debtIn_assetId, hbid.debtAsset]
    exact h.assets.symm
  rw [accepts, h.collateralFor_eq hbid, ok_bind]
  simp only [isSafe, callPrice, Asset.div, check, hast, ne_eq, not_false_eq_true,
    decide_true, if_true]
  exact ⟨_, rfl⟩

end

/-! ## Executing bids -/

def MarketState.withExecuted (s : MarketState) (bid : CollateralBid) (debt collateral : Int) :
    MarketState :=
  { s with
    callOrders := s.callOrders.write (bid.callOrder debt collateral s.callOrders.nextId)
    coreInOrders := s.coreCounted bid.bidder
      ⟨bid.additionalCollateral.amount + collateral, bid.additionalCollateral.assetId⟩
    bids := s.bids.remove bid.id }

variable {debt collateral : Int}

lemma executeBid_run (hbid : s.bids.find bid.id = some bid)
    (hfree : s.hasCallOrder bid.bidder bid.debtCovered.assetId = false) :
    executeBid bid debt collateral s = .ok () (s.withExecuted bid debt collateral) := by
  rw [executeBid, observe_bind, require_bind (by rw [hfree]; rfl),
    bind_run (show callOrderTable.create _ s = .ok _ _ from rfl), addCoreInOrders_bind]
  exact remove_bind (T := bidTable) (o := bid) (by exact hbid)

/-- A call order that results from a bid is at least as well collateralized as the bid was tested
with. -/
structure FromBid (b : BitassetData) (supply : Int) (bid : CollateralBid) (c : CallOrder) : Prop where
  borrower : c.borrower = bid.bidder
  debtType : c.debtType = b.assetId
  collateralType : c.collateralType = b.shortBackingAsset
  debt_pos : 0 < c.debt
  collateralized : ∃ tested, b.collateralFor supply bid = .ok tested ∧
    tested.amount * c.debt ≤ c.collateral * (bid.debtIn supply).amount

/-- A call order with the amounts that its bid was tested with. -/
structure AsTested (b : BitassetData) (supply : Int) (bid : CollateralBid) (c : CallOrder) : Prop where
  borrower : c.borrower = bid.bidder
  debt : c.debt = (bid.debtIn supply).amount
  collateral : b.collateralFor supply bid = .ok ⟨c.collateral, b.shortBackingAsset⟩

def bidCollateral (l : List CollateralBid) : Int :=
  (l.map fun bid => bid.additionalCollateral.amount).sum

structure Executed (b : BitassetData) (supply : Int) (s s' : MarketState) (l : List CollateralBid)
    (debt fund : Int) : Prop where
  debts : s'.debtOf b.assetId = s.debtOf b.assetId + debt
  collateral : s'.collateralOf b.assetId = s.collateralOf b.assetId + fund + bidCollateral l
  bids : ∀ id, s'.bids.find id = if id ∈ l.map CollateralBid.id then none else s.bids.find id
  calls : ∀ c ∈ s'.callOrders.objects, c ∈ s.callOrders.objects ∨ ∃ bid ∈ l, FromBid b supply bid c
  kept : ∀ c ∈ s.callOrders.objects, c ∈ s'.callOrders.objects
  pockets : s'.pockets = s.pockets
  currentSupply : s'.currentSupply = s.currentSupply
  bitassets : s'.bitassets = s.bitassets

lemma total_withExecuted (f : CallOrder → Int) :
    (s.withExecuted bid debt collateral).callOrders.total f
      = s.callOrders.total f + f (bid.callOrder debt collateral s.callOrders.nextId) := by
  have hnew : s.callOrders.find (bid.callOrder debt collateral s.callOrders.nextId).id = none :=
    Store.find_nextId _
  refine (total_put _ _ _).trans ?_
  rw [hnew, Option.elim_none, sub_zero]

lemma withExecuted_executed (hbid : IsBid b bid)
    (hfrom : FromBid b supply bid (bid.callOrder debt collateral s.callOrders.nextId)) :
    Executed b supply s (s.withExecuted bid debt collateral) [bid] debt collateral := by
  have htype : (bid.callOrder debt collateral s.callOrders.nextId).debtType = b.assetId :=
    hbid.debtAsset
  refine ⟨?_, ?_, fun id => ?_, fun c hc => ?_, fun c hc => ?_, rfl, rfl, rfl⟩
  · refine (total_withExecuted _).trans ?_
    rw [if_pos htype]
    rfl
  · refine (total_withExecuted _).trans ?_
    rw [if_pos htype]
    change _ + (bid.additionalCollateral.amount + collateral) = _ + collateral + bidCollateral [bid]
    simp only [bidCollateral, map_cons, map_nil, sum_cons, sum_nil]
    unfold collateralOf
    ring
  · refine (find_erase _ _ _).trans ?_
    simp only [map_cons, map_nil, mem_singleton]
  · rcases mem_put hc with rfl | hc
    · exact .inr ⟨bid, mem_cons_self, hfrom⟩
    · exact .inl hc
  · have hne : c.id ≠ s.callOrders.nextId := (s.callOrders.bounded c hc).ne
    refine mem_of_find ((find_put _ _ c.id).trans ?_)
    exact (if_neg hne).trans (find_of_mem hc)

variable {l : List CollateralBid}

lemma Executed.trans {s1 : MarketState} {l' : List CollateralBid} {debt' fund fund' : Int}
    (h : Executed b supply s s1 l debt fund) (h' : Executed b supply s1 s' l' debt' fund') :
    Executed b supply s s' (l ++ l') (debt + debt') (fund + fund') where
  debts := by rw [h'.debts, h.debts, add_assoc]
  collateral := by
    rw [h'.collateral, h.collateral]
    simp only [bidCollateral, map_append, sum_append]
    ring
  bids := by
    intro id
    simp only [h'.bids, h.bids, map_append, mem_append]
    by_cases h1 : id ∈ l.map CollateralBid.id
    · simp only [h1, true_or, if_true, ite_self]
    · simp only [h1, false_or, if_false]
  calls := by
    intro c hc
    rcases h'.calls c hc with hc | ⟨bid, hbid, hfrom⟩
    · rcases h.calls c hc with hc | ⟨bid, hbid, hfrom⟩
      · exact .inl hc
      · exact .inr ⟨bid, mem_append_left _ hbid, hfrom⟩
    · exact .inr ⟨bid, mem_append_right _ hbid, hfrom⟩
  kept := fun c hc => h'.kept c (h.kept c hc)
  pockets := h'.pockets.trans h.pockets
  currentSupply := h'.currentSupply.trans h.currentSupply
  bitassets := h'.bitassets.trans h.bitassets

/-! ## The second loop -/

/-- The settlement price, and that the part of the fund for each bid can be computed. -/
structure Priced (b : BitassetData) (supply : Int) (l : List CollateralBid) : Prop where
  base_pos : 0 < b.settlementPrice.base.amount
  bids : ∀ bid ∈ l, IsBid b bid ∧ 0 < (bid.debtIn supply).amount
  mul_eq : ∀ bid ∈ l, (bid.debtIn supply).mul b.settlementPrice
    = .ok ⟨b.fundFor (bid.debtIn supply).amount, b.shortBackingAsset⟩
  collateralFor_eq : ∀ bid ∈ l, b.collateralFor supply bid
    = .ok ⟨b.fundFor (bid.debtIn supply).amount + bid.additionalCollateral.amount, b.shortBackingAsset⟩

structure Pending (b : BitassetData) (s : MarketState) (l : List CollateralBid) : Prop where
  found : ∀ bid ∈ l, s.bids.find bid.id = some bid
  free : ∀ bid ∈ l, s.hasCallOrder bid.bidder b.assetId = false
  ids : (l.map CollateralBid.id).Nodup
  bidders : (l.map CollateralBid.bidder).Nodup

lemma Pending.tail (h : Pending b s (bid :: l)) :
    Pending b (s.withExecuted bid debt collateral) l := by
  have hids := h.ids
  have hbi := h.bidders
  rw [map_cons, nodup_cons] at hids hbi
  refine ⟨fun x hx => ?_, fun x hx => ?_, hids.2, hbi.2⟩
  · have hne : x.id ≠ bid.id := fun he => hids.1 (he ▸ mem_map_of_mem hx)
    refine (find_erase _ _ _).trans ?_
    rw [if_neg hne]
    exact h.found x (mem_cons_of_mem _ hx)
  · have hne : bid.bidder ≠ x.bidder := fun he => hbi.1 (he ▸ mem_map_of_mem hx)
    have hold := h.free x (mem_cons_of_mem _ hx)
    rw [hasCallOrder, any_eq_false] at hold ⊢
    intro c hc
    rcases mem_put hc with rfl | hc
    · rw [decide_eq_true_eq]
      exact fun he => hne he.1
    · exact hold c hc

lemma Priced.tail (h : Priced b supply (bid :: l)) : Priced b supply l :=
  ⟨h.base_pos, (forall_mem_cons.1 h.bids).2,
    (forall_mem_cons.1 h.mul_eq).2,
    (forall_mem_cons.1 h.collateralFor_eq).2⟩

variable {toCover remaining : Int} {rest : List CollateralBid}

lemma fundFor_mul_le (hbase : 0 < b.settlementPrice.base.amount) (hdebt : 0 ≤ debt)
    (hcover : 0 ≤ toCover)
    (hsol : toCover * b.settlementPrice.quote.amount ≤ remaining * b.settlementPrice.base.amount) :
    b.fundFor debt * toCover ≤ remaining * debt := by
  have hfloor : b.fundFor debt * b.settlementPrice.base.amount
      ≤ debt * b.settlementPrice.quote.amount := Int.ediv_mul_le _ hbase.ne'
  refine le_of_mul_le_mul_right ?_ hbase
  calc b.fundFor debt * toCover * b.settlementPrice.base.amount
      = b.fundFor debt * b.settlementPrice.base.amount * toCover := by ring
    _ ≤ debt * b.settlementPrice.quote.amount * toCover := mul_le_mul_of_nonneg_right hfloor hcover
    _ = toCover * b.settlementPrice.quote.amount * debt := by ring
    _ ≤ remaining * b.settlementPrice.base.amount * debt :=
        mul_le_mul_of_nonneg_right hsol hdebt
    _ = remaining * debt * b.settlementPrice.base.amount := by ring

lemma executeBids_cons (hpriced : Priced b supply (bid :: l)) (hpending : Pending b s (bid :: l)) :
    b.executeBids supply (bid :: l) toCover remaining s =
      if toCover ≤ (bid.debtIn supply).amount then
        b.executeBids supply l 0 0 (s.withExecuted bid toCover remaining) else
        b.executeBids supply l (toCover - (bid.debtIn supply).amount)
          (remaining - b.fundFor (bid.debtIn supply).amount)
          (s.withExecuted bid (bid.debtIn supply).amount (b.fundFor (bid.debtIn supply).amount)) := by
  have hbid := (hpriced.bids bid mem_cons_self).1
  have hfree : s.hasCallOrder bid.bidder bid.debtCovered.assetId = false := by
    rw [hbid.debtAsset]
    exact hpending.free bid mem_cons_self
  have hfound := hpending.found bid mem_cons_self
  rw [executeBids, calculate_bind (hpriced.mul_eq bid mem_cons_self)]
  by_cases hlast : toCover ≤ (bid.debtIn supply).amount
  · simp only [hlast, decide_true, if_true, sub_self]
    exact bind_run (executeBid_run hfound hfree) _
  · simp only [hlast, decide_false, Bool.false_eq_true, if_false]
    exact bind_run (executeBid_run hfound hfree) _

lemma executeBids_run (hpriced : Priced b supply l) (hpending : Pending b s l) (hpos : 0 < toCover)
    (hcov : toCover ≤ covers supply l)
    (hbefore : ∀ l1 bid l2, l = l1 ++ bid :: l2 → covers supply l1 < toCover)
    (hsol : toCover * b.settlementPrice.quote.amount
      ≤ remaining * b.settlementPrice.base.amount) :
    ∃ s', b.executeBids supply l toCover remaining s = .ok (0, 0) s' ∧
      Executed b supply s s' l toCover remaining ∧
      ∀ x ∈ l.dropLast, ∃ c ∈ s'.callOrders.objects, AsTested b supply x c := by
  induction l generalizing s toCover remaining with
  | nil => exact absurd hcov (not_le.2 hpos)
  | cons bid l ih =>
    obtain ⟨hbid, hdebt⟩ := hpriced.bids bid mem_cons_self
    have htested := hpriced.collateralFor_eq bid mem_cons_self
    rw [executeBids_cons hpriced hpending]
    rw [covers_cons] at hcov
    set part := (bid.debtIn supply).amount
    by_cases hlast : toCover ≤ part
    · -- the supply is covered: the first loop has stopped here
      have hnil : l = [] := by
        cases l with
        | nil => rfl
        | cons x l =>
          have := hbefore [bid] x l rfl
          rw [covers_cons] at this
          simp only [covers, map_nil, sum_nil] at this
          omega
      subst hnil
      rw [if_pos hlast]
      refine ⟨_, rfl, withExecuted_executed hbid ⟨rfl, hbid.debtAsset, hbid.collateralAsset, hpos,
        _, htested, ?_⟩, nofun⟩
      have hfund := fundFor_mul_le hpriced.base_pos hdebt.le hpos.le hsol
      have hadd : bid.additionalCollateral.amount * toCover ≤ bid.additionalCollateral.amount * part :=
        mul_le_mul_of_nonneg_left hlast hbid.collateral_pos.le
      change (b.fundFor part + bid.additionalCollateral.amount) * toCover
        ≤ (bid.additionalCollateral.amount + remaining) * part
      rw [add_mul, add_mul]
      omega
    · rw [if_neg hlast]
      have hfirst : Executed b supply s (s.withExecuted bid part (b.fundFor part)) [bid] part
          (b.fundFor part) := by
        refine withExecuted_executed hbid ⟨rfl, hbid.debtAsset, hbid.collateralAsset, hdebt,
          _, htested, le_of_eq ?_⟩
        change (b.fundFor part + bid.additionalCollateral.amount) * part
          = (bid.additionalCollateral.amount + b.fundFor part) * part
        ring
      have hfloor : b.fundFor part * b.settlementPrice.base.amount
          ≤ part * b.settlementPrice.quote.amount := Int.ediv_mul_le _ hpriced.base_pos.ne'
      have hsol' : (toCover - part) * b.settlementPrice.quote.amount
          ≤ (remaining - b.fundFor part) * b.settlementPrice.base.amount := by
        rw [sub_mul, sub_mul]
        omega
      have hbefore' : ∀ l1 x l2, l = l1 ++ x :: l2 → covers supply l1 < toCover - part := by
        intro l1 x l2 heq
        have := hbefore (bid :: l1) x l2 (by rw [heq, cons_append])
        rw [covers_cons] at this
        omega
      obtain ⟨s', hrun, hrest, hlater⟩ := ih hpriced.tail hpending.tail (by omega) (by omega) hbefore' hsol'
      have hall := hfirst.trans hrest
      rw [add_sub_cancel, add_sub_cancel] at hall
      refine ⟨s', hrun, hall, fun x hx => ?_⟩
      cases l with
      | nil => cases hx
      | cons y l =>
        rcases mem_cons.1 hx with rfl | hx
        · refine ⟨_, hrest.kept _ (mem_of_find ((find_put _ _ _).trans (if_pos rfl))), rfl, rfl, ?_⟩
          exact htested.trans (by rw [add_comm]; rfl)
        · exact hlater x hx

lemma Revivable.priced (h : Revivable s b) (hsupply : 0 < s.currentSupply.get b.assetId)
    (hl : ∀ bid ∈ l, bid ∈ s.bidsByPrice b.assetId) :
    Priced b (s.currentSupply.get b.assetId) l where
  base_pos := h.base_pos
  bids := fun bid hbid => ⟨h.isBid (hl bid hbid), debtIn_pos hsupply (h.isBid (hl bid hbid)).debt_pos⟩
  mul_eq := fun bid hbid => h.mul_eq (h.isBid (hl bid hbid))
  collateralFor_eq := fun bid hbid => h.collateralFor_eq (h.isBid (hl bid hbid))

lemma Revivable.nodup_bidders (h : Revivable s b) (hnodup : l.Nodup)
    (hl : ∀ bid ∈ l, bid ∈ s.bidsByPrice b.assetId) : (l.map bidder).Nodup := by
  refine hnodup.map_on fun x hx y hy he => ?_
  obtain ⟨hx, hxa⟩ := mem_bidsByPrice.1 (hl x hx)
  obtain ⟨hy, hya⟩ := mem_bidsByPrice.1 (hl y hy)
  exact h.oneBid x hx y hy hxa hya he

lemma Revivable.pending (h : Revivable s b) (hl : s.bidsByPrice b.assetId = l ++ rest) :
    Pending b s l := by
  have hmem : ∀ bid ∈ l, bid ∈ s.bidsByPrice b.assetId := by
    intro bid hbid
    rw [hl]
    exact mem_append_left _ hbid
  have hids : (l.map CollateralBid.id).Nodup := by
    have hall := nodup_bidsByPrice s b.assetId
    rw [hl, map_append] at hall
    exact hall.of_append_left
  refine ⟨fun bid hbid => ?_, fun bid hbid => ?_, hids, h.nodup_bidders hids.of_map hmem⟩
  · exact find_of_mem (mem_bidsByPrice.1 (hmem bid hbid)).1
  · rw [hasCallOrder, any_eq_false]
    intro c hc
    rw [decide_eq_true_eq]
    exact fun he => h.noCalls c hc he.2

def refunds (l : List CollateralBid) (p : Pocket) : Int :=
  (l.map fun bid =>
    if p = .balance bid.bidder bid.additionalCollateral.assetId then bid.additionalCollateral.amount
    else 0).sum

structure Refunded (s s' : MarketState) (l : List CollateralBid) : Prop where
  pockets : ∀ p, s'.pockets.get p = s.pockets.get p + refunds l p
  bids : ∀ id, s'.bids.find id = if id ∈ l.map CollateralBid.id then none else s.bids.find id
  callOrders : s'.callOrders = s.callOrders
  currentSupply : s'.currentSupply = s.currentSupply
  bitassets : s'.bitassets = s.bitassets

def MarketState.withCancelled (s : MarketState) (bid : CollateralBid) : MarketState :=
  { s with
    pockets := s.pockets.add (.balance bid.bidder bid.additionalCollateral.assetId)
      bid.additionalCollateral.amount
    bids := s.bids.remove bid.id }

lemma cancelBid_run (hbid : s.bids.find bid.id = some bid)
    (hpos : 0 ≤ bid.additionalCollateral.amount) :
    cancelBid bid s = .ok () (s.withCancelled bid) := by
  rw [cancelBid, bind_run (adjustBalance_run hpos)]
  exact remove_bind (T := bidTable) (o := bid) (by exact hbid)

lemma cancelBids_run (hfound : ∀ bid ∈ l, s.bids.find bid.id = some bid)
    (hids : (l.map CollateralBid.id).Nodup)
    (hpos : ∀ bid ∈ l, 0 ≤ bid.additionalCollateral.amount) :
    ∃ s', cancelBids l s = .ok () s' ∧ Refunded s s' l := by
  induction l generalizing s with
  | nil => exact ⟨s, rfl, fun p => by simp [refunds], fun id => by simp, rfl, rfl, rfl⟩
  | cons bid l ih =>
    rw [map_cons, nodup_cons] at hids
    have hrest : ∀ x ∈ l, (s.withCancelled bid).bids.find x.id = some x := by
      intro x hx
      have hne : x.id ≠ bid.id := fun he => hids.1 (he ▸ mem_map_of_mem hx)
      refine (find_erase _ _ _).trans ?_
      rw [if_neg hne]
      exact hfound x (mem_cons_of_mem _ hx)
    obtain ⟨s', hrun, href⟩ := ih hrest hids.2 (forall_mem_cons.1 hpos).2
    refine ⟨s', ?_, ?_, ?_, href.callOrders, href.currentSupply, href.bitassets⟩
    · rwa [cancelBids, bind_run (cancelBid_run (hfound bid mem_cons_self) (hpos bid mem_cons_self))]
    · intro p
      have hfst : (s.withCancelled bid).pockets.get p = s.pockets.get p
          + if p = .balance bid.bidder bid.additionalCollateral.assetId
            then bid.additionalCollateral.amount else 0 := by
        rw [withCancelled, Tally.get_add, Pi.add_apply, Pi.single_apply]
      rw [href.pockets, hfst, refunds, refunds, map_cons, sum_cons, add_assoc]
    · intro id
      have hfst : (s.withCancelled bid).bids.find id
          = if id = bid.id then none else s.bids.find id := find_erase _ _ _
      simp only [href.bids, hfst, map_cons, mem_cons]
      by_cases h1 : id = bid.id
      · simp only [h1, true_or, if_true, ite_self]
      · simp only [h1, false_or, if_false]

/-! ## `process_bids` -/

/-- A globally settled asset has been revived: bids became call orders, the others were refunded. -/
structure Revived (ratio : Nat) (b : BitassetData) (s s' : MarketState)
    (executed others : List CollateralBid) : Prop where
  split : (executed ++ others).Perm (s.bidsByPrice b.assetId)
  accepted : ∀ bid ∈ executed, b.accepts ratio (s.currentSupply.get b.assetId) bid = .ok true
  debts : s'.debtOf b.assetId = s.currentSupply.get b.assetId
  collateral : s'.collateralOf b.assetId
    = (if s.currentSupply.get b.assetId = 0 then 0 else b.settlementFund) + bidCollateral executed
  calls : ∀ c ∈ s'.callOrders.objects, c ∈ s.callOrders.objects ∨
    ∃ bid ∈ executed, FromBid b (s.currentSupply.get b.assetId) bid c
  asTested : ∀ bid ∈ executed.dropLast, ∃ c ∈ s'.callOrders.objects,
    AsTested b (s.currentSupply.get b.assetId) bid c
  kept : ∀ c ∈ s.callOrders.objects, c ∈ s'.callOrders.objects
  pockets : ∀ p, s'.pockets.get p = s.pockets.get p + refunds others p
  bids : ∀ id, s'.bids.find id =
    if id ∈ (executed ++ others).map CollateralBid.id then none else s.bids.find id
  currentSupply : s'.currentSupply = s.currentSupply
  bitasset : s'.bitassets.find b.assetId = some b.revived

lemma Revivable.isGloballySettled (h : Revivable s b) : b.IsGloballySettled := by
  rintro ⟨hbase, hquote⟩
  rw [h.base] at hbase
  rw [h.quote] at hquote
  exact h.assets (hbase.trans hquote.symm)

lemma cancelBidsAndReviveMpa_run (hfound : s.bitassets.find b.assetId = some b)
    (hset : b.IsGloballySettled) (hpre : b.isPredictionMarket = false)
    (hpos : ∀ bid ∈ s.bidsByPrice b.assetId, 0 ≤ bid.additionalCollateral.amount) :
    ∃ t, Refunded s t (s.bidsByPrice b.assetId) ∧ cancelBidsAndReviveMpa b.assetId s
      = .ok () { t with bitassets := t.bitassets.put b.revived } := by
  obtain ⟨t, hrun, href⟩ := cancelBids_run (s := s)
    (fun bid hbid => find_of_mem (mem_bidsByPrice.1 hbid).1) (nodup_bidsByPrice s b.assetId) hpos
  refine ⟨t, href, ?_⟩
  have hsame : t.bitassets.find b.assetId = some b := by
    rwa [href.bitassets]
  rw [cancelBidsAndReviveMpa, bitassetData_bind hfound, require_bind (decide_eq_true hset),
    require_bind (by rw [hpre]; rfl), observe_bind, bind_run hrun]
  exact modifyBitasset_run hsame _

lemma Executed.perm {fund : Int} (hl : s.bidsByPrice b.assetId = l ++ rest)
    (h : Executed b supply s s' l debt fund) :
    (l ++ s'.bidsByPrice b.assetId).Perm (s.bidsByPrice b.assetId) := by
  have hids := nodup_bidsByPrice s b.assetId
  rw [hl, map_append, nodup_append] at hids
  rw [hl]
  refine List.Perm.append_left l ?_
  rw [perm_ext_iff_of_nodup (nodup_bidsByPrice s' b.assetId).of_map hids.2.1.of_map]
  intro bid
  have hold : bid ∈ l ++ rest ↔ s.bids.find bid.id = some bid ∧ bid.debtCovered.assetId = b.assetId := by
    rw [← hl, mem_bidsByPrice, mem_iff_find]
  rw [mem_bidsByPrice, mem_iff_find, h.bids]
  by_cases hmem : bid.id ∈ l.map CollateralBid.id
  · have hnot : bid ∉ rest := fun hbid =>
      hids.2.2 _ hmem _ (mem_map_of_mem hbid) rfl
    simp [hmem, hnot]
  · have hnot : bid ∉ l := fun hbid => hmem (mem_map_of_mem hbid)
    rw [if_neg hmem, ← hold, mem_append, or_iff_right hnot]

lemma Revivable.total_eq_zero (h : Revivable s b) (f : CallOrder → Int) :
    s.callOrders.total (fun c => if c.debtType = b.assetId then f c else 0) = 0 := by
  refine sum_eq_zero fun x hx => ?_
  obtain ⟨c, hc, rfl⟩ := mem_map.1 hx
  exact if_neg (h.noCalls c hc)

/-- Once bids have been executed for the whole supply, or there is no supply, the asset is
revived. -/
lemma Executed.revive (h : Revivable s b) {t : MarketState}
    (hl : s.bidsByPrice b.assetId = l ++ rest)
    (haccepted : ∀ bid ∈ l, b.accepts ratio (s.currentSupply.get b.assetId) bid = .ok true)
    (hexec : Executed b (s.currentSupply.get b.assetId) s t l (s.currentSupply.get b.assetId)
      (if s.currentSupply.get b.assetId = 0 then 0 else b.settlementFund))
    (htested : ∀ bid ∈ l.dropLast, ∃ c ∈ t.callOrders.objects,
      AsTested b (s.currentSupply.get b.assetId) bid c) :
    ∃ s', cancelBidsAndReviveMpa b.assetId t = .ok () s' ∧
      Revived ratio b s s' l (t.bidsByPrice b.assetId) := by
  have hfound : t.bitassets.find b.assetId = some b := by
    rw [hexec.bitassets]
    exact h.found
  have hsplit := hexec.perm hl
  have hpos : ∀ bid ∈ t.bidsByPrice b.assetId, 0 ≤ bid.additionalCollateral.amount := by
    intro bid hbid
    exact (h.isBid (hsplit.mem_iff.1 (mem_append_right _ hbid))).collateral_pos.le
  obtain ⟨u, href, hrun⟩ := cancelBidsAndReviveMpa_run hfound h.isGloballySettled h.notPrediction hpos
  refine ⟨_, hrun, hsplit, haccepted, ?_, ?_, ?_, ?_, ?_, ?_, ?_, ?_, ?_⟩
  · rw [href.callOrders]
    refine hexec.debts.trans ?_
    rw [debtOf, h.total_eq_zero, zero_add]
  · rw [href.callOrders]
    refine hexec.collateral.trans ?_
    rw [collateralOf, h.total_eq_zero, zero_add]
  · rw [href.callOrders]
    exact hexec.calls
  · rwa [href.callOrders]
  · rw [href.callOrders]
    exact hexec.kept
  · intro p
    refine (href.pockets p).trans ?_
    rw [hexec.pockets]
  · intro id
    refine (href.bids id).trans ?_
    simp only [hexec.bids, map_append, mem_append]
    by_cases hid : id ∈ l.map CollateralBid.id
    · simp only [hid, true_or, if_true, ite_self]
    · simp only [hid, false_or, if_false]
  · exact href.currentSupply.trans hexec.currentSupply
  · refine (find_put _ _ _).trans ?_
    exact if_pos rfl

lemma Executed.refl (b : BitassetData) (supply : Int) (s : MarketState) :
    Executed b supply s s [] 0 0 :=
  ⟨by rw [add_zero], by simp [bidCollateral], fun id => by simp, fun _ hc => .inl hc,
    fun _ hc => hc, rfl, rfl, rfl⟩

/-- `process_bids` does not throw.  It changes nothing, or it revives the asset: the debts of the
new call orders add up to the supply and their collateral to the fund and the collateral of the
executed bids, each but the last has the amounts it was tested with, and the other bids are refunded. -/
theorem processBids_revives (env : Env) (s : MarketState) (b : BitassetData) (h : Revivable s b) :
    ∃ s', env.processBids b.assetId s = .ok () s' ∧ (s' = s ∨ ∃ executed others,
        Revived (env.initialCollateralRatio b.assetId) b s s' executed others) := by
  have hvalid : ¬ (b.isPredictionMarket = true ∨ b.currentFeed.settlementPrice.IsNull) := by
    rw [h.notPrediction]
    exact fun hor => hor.elim nofun h.feed
  rw [Env.processBids, bitassetData_bind h.found, if_neg hvalid, observe_bind]
  by_cases hzero : s.currentSupply.get b.assetId = 0
  · -- nobody holds the asset: all bids are refunded
    rw [if_pos hzero]
    obtain ⟨s', hrun, hrevived⟩ := Executed.revive (l := []) h rfl nofun
      (by rw [if_pos hzero, hzero]; exact Executed.refl b 0 s) nofun
    exact ⟨s', hrun, .inr ⟨_, _, hrevived⟩⟩
  · rw [if_neg hzero, observe_bind]
    have hsupply : 0 < s.currentSupply.get b.assetId := lt_of_le_of_ne h.supply_nonneg (Ne.symm hzero)
    obtain ⟨l, rest, hl, hcovering, haccepted, hbefore⟩ := coveringBids_eq 0
      (fun bid hbid => h.accepts_eq (h.isBid hbid) (env.initialCollateralRatio b.assetId))
    rw [calculate_bind hcovering]
    simp only [zero_add] at hbefore ⊢
    by_cases hless : covers (s.currentSupply.get b.assetId) l < s.currentSupply.get b.assetId
    · rw [if_pos hless]
      exact ⟨s, rfl, .inl rfl⟩
    · rw [if_neg hless]
      have hmem : ∀ bid ∈ l, bid ∈ s.bidsByPrice b.assetId := by
        intro bid hbid
        rw [hl]
        exact mem_append_left _ hbid
      obtain ⟨t, hrun, hexec, htested⟩ := executeBids_run (h.priced hsupply hmem) (h.pending hl) hsupply
        (not_lt.1 hless) hbefore h.solvent
      obtain ⟨s', hlast, hrevived⟩ := Executed.revive h hl haccepted
        (by rw [if_neg hzero]; exact hexec) htested
      rw [bind_run hrun]
      exact ⟨s', hlast, .inr ⟨_, _, hrevived⟩⟩

/-- An asset with a supply of one, of which two were there when a fund of three was settled. -/
def nearlyPaidOut : BitassetData where
  assetId := 1
  shortBackingAsset := 0
  blackSwanResponseMethod := .globalSettlement
  marginCallFeeRatio := none
  medianFeed := ⟨⟨⟨4, 1⟩, ⟨500000000000003, 0⟩⟩, 1750, 1100⟩
  currentFeed := ⟨⟨⟨4, 1⟩, ⟨500000000000003, 0⟩⟩, 1750, 1100⟩
  currentMaintenanceCollateralization := ⟨⟨7, 0⟩, ⟨4, 1⟩⟩
  isPredictionMarket := false
  settlementPrice := ⟨⟨2, 1⟩, ⟨3, 0⟩⟩
  settlementFund := 2
  individualSettlementDebt := 0
  individualSettlementFund := 0

def largeBid : CollateralBid where
  id := 0
  bidder := 7
  invSwanPrice := ⟨⟨249999999999999, 0⟩, ⟨1, 1⟩⟩

def largeBidState : MarketState :=
  { MarketState.empty with
    currentSupply := Tally.add Keyed.empty 1 1
    bids := Store.empty.write largeBid
    bitassets := Keyed.empty.put nearlyPaidOut }

lemma largeBidState_revivable : Revivable largeBidState nearlyPaidOut where
  found := rfl
  notPrediction := rfl
  feed := by decide
  base := rfl
  quote := rfl
  assets := by decide
  base_pos := by decide
  quote_pos := by decide
  fund_le := by decide
  supply_nonneg := by decide
  solvent := by decide
  bids := by decide
  oneBid := by decide
  noCalls := by decide

def callsAfter (x : MarketM Unit) (s : MarketState) : Option (List CallOrder) :=
  match x s with
  | .ok _ s' => some s'.callOrders.objects
  | .error _ _ => none

theorem processBids_revives_largeBid :
    ∃ s', Env.plain.processBids nearlyPaidOut.assetId largeBidState = .ok () s' ∧
      (s' = largeBidState ∨ ∃ executed others, Revived
        (Env.plain.initialCollateralRatio nearlyPaidOut.assetId) nearlyPaidOut largeBidState s'
        executed others) :=
  processBids_revives Env.plain largeBidState nearlyPaidOut largeBidState_revivable

/-- The bid passes the test with a collateral of 250000000000000, of which the call price is exact.
Its call order has one more, and the rounding of its call price makes it fail the same test. -/
theorem revived_position_fails_test : Revivable largeBidState nearlyPaidOut ∧
      nearlyPaidOut.accepts 1750 1 largeBid = .ok true ∧
      callsAfter (Env.plain.processBids 1) largeBidState
        = some [⟨0, 7, 250000000000001, 1, 0, 1, none⟩] ∧
      nearlyPaidOut.isSafe 1750 ⟨1, 1⟩ ⟨250000000000001, 0⟩ = .ok false :=
  ⟨largeBidState_revivable, by decide +kernel, by decide +kernel, by decide +kernel⟩

end Graphene.Market
