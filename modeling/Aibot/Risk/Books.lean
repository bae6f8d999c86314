/-
The books of the paper ledger: cash, cost basis and realized profit over any run. The cost basis
of a position is released by floor division on every partial sale; what is released leaves the
basis and enters the profit, so nothing is lost however often a position is sold from.
-/
import Aibot.Risk.Turn

namespace Aibot.Risk

open Aibot.Store

/-! ## Sums over the sales of one position -/

/-- The SELL records of one position, oldest first. -/
def sellsOf (events : List Event) (positionId : Uuid) : List SellRecord :=
  (sells events).filter fun s => s.positionId = positionId

/-- The profit realized by the sales of one position. -/
def realizedPnlOf (events : List Event) (positionId : Uuid) : Int :=
  ((sellsOf events positionId).map SellRecord.realizedPnlLamports).sum

/-- The proceeds of the sales of one position. -/
def proceedsOf (events : List Event) (positionId : Uuid) : Int :=
  ((sellsOf events positionId).map SellRecord.proceedsLamports).sum

/-- The tokens sold from one position. -/
def soldAmountOf (events : List Event) (positionId : Uuid) : Int :=
  ((sellsOf events positionId).map SellRecord.tokenAmountRaw).sum

/-- The profit realized by all sales. -/
def realizedPnl (events : List Event) : Int :=
  ((sells events).map SellRecord.realizedPnlLamports).sum

/-! ## What a call does to the books -/

/-- The fields of a position the books read. -/
structure SameAccount (p p' : Position) : Prop where
  positionId : p'.positionId = p.positionId
  tokenAmountRaw : p'.tokenAmountRaw = p.tokenAmountRaw
  remainingCostLamports : p'.remainingCostLamports = p.remainingCostLamports
  entryCostLamports : p'.entryCostLamports = p.entryCostLamports
  entryTokenAmountRaw : p'.entryTokenAmountRaw = p.entryTokenAmountRaw
  cumulativeProceedsLamports : p'.cumulativeProceedsLamports = p.cumulativeProceedsLamports

/-- A call as the books see it. -/
inductive Entry (w : World) (op : Op) (w' : World) : Prop
  /-- No position and no lamport moved. -/
  | idle : w'.ledger.positions = w.ledger.positions → w'.ledger.cashLamports = w.ledger.cashLamports →
      Records w w' [] [] [] → Entry w op w'
  /-- Fields the books do not read were written. -/
  | touched {mint : Mint} {p p' : Position} : w.ledger.position? mint = some p → SameAccount p p' →
      w'.ledger.positions = w.ledger.positions.set mint p' →
      w'.ledger.cashLamports = w.ledger.cashLamports → Records w w' [] [] [] → Entry w op w'
  | bought {r : BuyRequest} {route : RouteType} {id : Uuid} {round : Nat} {at_ : IsoTime} :
      w.ledger.position? r.mint = none → id ∉ w.ids → 0 < r.costLamports → 0 < r.tokenAmountRaw →
      r.costLamports ≤ w.ledger.cashLamports →
      w'.ledger.positions = w.ledger.positions.set r.mint (r.position route id round at_) →
      w'.ledger.cashLamports = w.ledger.cashLamports - r.costLamports → id ∈ w'.ids →
      Records w w' [] [r.record route id round] [] → Entry w op w'
  | sold {r : SellRequest} {p p' : Position} {sold : Int} : op.sale? = some r →
      w.ledger.position? r.mint = some p → r.matches p = true →
      sold = min r.tokenAmountRaw p.tokenAmountRaw → 0 < sold →
      SameAccount (p.sold sold r.proceedsLamports) p' →
      w'.ledger.positions =
        (if p'.tokenAmountRaw ≤ 0 then (w.ledger.positions.set r.mint p').erase r.mint
          else w.ledger.positions.set r.mint p') →
      w'.ledger.cashLamports = w.ledger.cashLamports + r.proceedsLamports →
      Records w w' [r.record p sold] [] [(r, r.record p sold)] → Entry w op w'

theorem BuyRequest.check_ok {r : BuyRequest} {route : RouteType} (h : r.check = .ok route) :
    0 < r.costLamports ∧ 0 < r.tokenAmountRaw := by
  unfold BuyRequest.check at h
  split_ifs at h
  all_goals omega

theorem markTakeProfit_sameAccount (p : Position) (reason : ExitReason) :
    SameAccount p (p.markTakeProfit reason) := by
  unfold Position.markTakeProfit
  split_ifs
  all_goals exact ⟨rfl, rfl, rfl, rfl, rfl, rfl⟩

theorem Touch.sameAccount {op : Op} {p p' : Position} (h : Touch op p p') : SameAccount p p' := by
  cases h with
  | marked | lifecycled | armed | quoteFailed => exact ⟨rfl, rfl, rfl, rfl, rfl, rfl⟩

/-- Every call is one of the entries of the books. -/
theorem step_entry {w w' : World} {op : Op} (h : w.step op = some w') : Entry w op w' := by
  have hids := (step_log h).2
  have hturn := step_turn h
  generalize (op.run w.ledger).1 = ret at hturn
  cases hturn with
  | idle _ hpos hcash hrec => exact .idle hpos hcash hrec
  | bought hr hfree hfresh hc hpos hcash hrec =>
    obtain ⟨hcost, hamount⟩ := BuyRequest.check_ok hr
    refine .bought hfree hfresh hcost hamount hc hpos hcash ?_ hrec
    rw [hids]
    exact List.mem_append_right _ (List.mem_singleton.2 rfl)
  | @claimed _ _ exitId reason p hp _ _ hpos hcash hrec =>
    have hsame : SameAccount p (p.claimed exitId reason) := ⟨rfl, rfl, rfl, rfl, rfl, rfl⟩
    exact .touched (positionWithId?_eq_some.1 hp).1 hsame hpos hcash hrec
  | @released _ _ _ degraded p hp _ hpos hcash hrec =>
    have hsame : SameAccount p (p.released degraded) := ⟨rfl, rfl, rfl, rfl, rfl, rfl⟩
    exact .touched (positionWithId?_eq_some.1 hp).1 hsame hpos hcash hrec
  | touched _ hp htouch hpos hcash hrec => exact .touched hp htouch.sameAccount hpos hcash hrec
  | @sold r _ _ _ _ hp hm hmin hsold hpos hcash hrec =>
    exact .sold rfl hp hm hmin hsold (markTakeProfit_sameAccount _ r.reason) hpos hcash hrec

/-! ## The invariant -/

/-- The account of an open position: its BUY, what is left of it, and what its sales made. -/
structure OpenAccount (w : World) (mint : Mint) (p : Position) : Prop where
  bought : ∃ b ∈ buys w.recorded, b.mint = mint ∧ b.positionId = p.positionId ∧
    b.costLamports = p.entryCostLamports ∧ b.tokenAmountRaw = p.entryTokenAmountRaw
  amountPos : 0 < p.tokenAmountRaw
  costPos : 0 < p.remainingCostLamports
  amount : soldAmountOf w.recorded p.positionId + p.tokenAmountRaw = p.entryTokenAmountRaw
  proceeds : proceedsOf w.recorded p.positionId = p.cumulativeProceedsLamports
  pnl : realizedPnlOf w.recorded p.positionId =
    p.cumulativeProceedsLamports - (p.entryCostLamports - p.remainingCostLamports)

/-- The account of a position that is no longer open. -/
structure ClosedAccount (w : World) (b : BuyRecord) : Prop where
  amount : soldAmountOf w.recorded b.positionId = b.tokenAmountRaw
  pnl : realizedPnlOf w.recorded b.positionId = proceedsOf w.recorded b.positionId - b.costLamports

/-- No open position has this id. -/
def NotOpen (w : World) (id : Uuid) : Prop :=
  ∀ mint p, w.ledger.position? mint = some p → p.positionId ≠ id

structure Books (w : World) : Prop where
  total : w.ledger.cashLamports + w.ledger.positions.sumOf Position.remainingCostLamports -
    realizedPnl w.recorded = initialPaperLamports
  buysIssued : ∀ b ∈ buys w.recorded, b.positionId ∈ w.ids
  sellsIssued : ∀ s ∈ sells w.recorded, s.positionId ∈ w.ids
  buyOnce : ((buys w.recorded).map BuyRecord.positionId).Nodup
  opened : ∀ mint p, w.ledger.position? mint = some p → OpenAccount w mint p
  closed : ∀ b ∈ buys w.recorded, NotOpen w b.positionId → ClosedAccount w b

/-- Two open positions with one id are one. -/
theorem Books.idInjective {w : World} (hw : Books w) {mint mint' : Mint} {p p' : Position}
    (h : w.ledger.position? mint = some p) (h' : w.ledger.position? mint' = some p')
    (hid : p.positionId = p'.positionId) : mint = mint' := by
  obtain ⟨b, hb, hm, hi, -⟩ := (hw.opened mint p h).bought
  obtain ⟨b', hb', hm', hi', -⟩ := (hw.opened mint' p' h').bought
  have : b = b' := List.inj_on_of_nodup_map hw.buyOnce hb hb' (by rw [hi, hi', hid])
  rw [← hm, ← hm', this]

theorem books_start : Books World.start := by
  refine ⟨rfl, ?_, ?_, List.nodup_nil, ?_, ?_⟩
  · intro b hb; cases hb
  · intro s hs; cases hs
  · intro mint p hp; cases hp
  · intro b hb; cases hb

/-! ## The cost basis of one sale -/

/-- A full sale releases the whole basis. -/
theorem costReleased_all {p : Position} (h : 0 < p.tokenAmountRaw) :
    p.costReleased p.tokenAmountRaw = p.remainingCostLamports := by
  unfold Position.costReleased
  exact Int.mul_fdiv_cancel _ (by omega)

/-- A partial sale leaves some of the basis, whatever the division drops. -/
theorem costReleased_lt {p : Position} {sold : Int} (hcost : 0 < p.remainingCostLamports)
    (hlt : sold < p.tokenAmountRaw) (hpos : 0 < sold) :
    p.costReleased sold < p.remainingCostLamports := by
  unfold Position.costReleased
  rw [Int.fdiv_eq_ediv_of_nonneg _ (by omega)]
  exact Int.ediv_lt_of_lt_mul (by omega) (mul_lt_mul_of_pos_left hlt hcost)

/-! ## Every call keeps the books -/

/-- A call without a sale leaves the sums of every position alone. -/
theorem Records.quiet {w w' : World} {bought : List BuyRecord} {sales : List (SellRequest × SellRecord)}
    (h : Records w w' [] bought sales) (id : Uuid) : sellsOf w'.recorded id = sellsOf w.recorded id := by
  unfold sellsOf; rw [h.sells, List.append_nil]

/-- A sale enters the sums of its own position only. -/
theorem Records.sale {w w' : World} {s : SellRecord} {bought : List BuyRecord}
    {sales : List (SellRequest × SellRecord)} (h : Records w w' [s] bought sales) (id : Uuid) :
    sellsOf w'.recorded id = sellsOf w.recorded id ++ if s.positionId = id then [s] else [] := by
  unfold sellsOf
  rw [h.sells, List.filter_append, List.filter_singleton]
  by_cases hs : s.positionId = id <;> simp [hs]

/-- An account depends on the position's own fields, its BUY and its sales. -/
theorem OpenAccount.transfer {w w' : World} {mint : Mint} {p p' : Position}
    (h : OpenAccount w mint p) (hs : SameAccount p p') (hbuys : buys w.recorded ⊆ buys w'.recorded)
    (hsells : sellsOf w'.recorded p.positionId = sellsOf w.recorded p.positionId) :
    OpenAccount w' mint p' := by
  obtain ⟨b, hb, hm, hi, hc, ha⟩ := h.bought
  have h1 := h.amount; have h2 := h.proceeds; have h3 := h.pnl
  unfold soldAmountOf proceedsOf realizedPnlOf at *
  rw [← hsells] at h1 h2 h3
  refine ⟨⟨b, hbuys hb, hm, hi.trans hs.positionId.symm, hc.trans hs.entryCostLamports.symm,
      ha.trans hs.entryTokenAmountRaw.symm⟩, by rw [hs.tokenAmountRaw]; exact h.amountPos,
    by rw [hs.remainingCostLamports]; exact h.costPos, ?_, ?_, ?_⟩
  · unfold soldAmountOf; rw [hs.positionId, hs.tokenAmountRaw, hs.entryTokenAmountRaw]; exact h1
  · unfold proceedsOf; rw [hs.positionId, hs.cumulativeProceedsLamports]; exact h2
  · unfold realizedPnlOf
    rw [hs.positionId, hs.cumulativeProceedsLamports, hs.entryCostLamports, hs.remainingCostLamports]
    exact h3

theorem ClosedAccount.transfer {w w' : World} {b : BuyRecord} (h : ClosedAccount w b)
    (hsells : sellsOf w'.recorded b.positionId = sellsOf w.recorded b.positionId) :
    ClosedAccount w' b := by
  have h1 := h.amount; have h2 := h.pnl
  unfold soldAmountOf at h1
  unfold proceedsOf realizedPnlOf at h2
  rw [← hsells] at h1 h2
  exact ⟨h1, h2⟩

/-- An id that no position has after a call that writes one of them: no other position had it before,
and if the written one had not either, none had. -/
theorem NotOpen.back {w w' : World} {mint : Mint} {id : Uuid} (h : NotOpen w' id)
    (hothers : ∀ m, m ≠ mint → w'.ledger.position? m = w.ledger.position? m)
    (hthis : ∀ p, w.ledger.position? mint = some p → p.positionId ≠ id) : NotOpen w id := by
  intro m p hp
  by_cases hm : m = mint
  · subst hm
    exact hthis p hp
  · exact h m p ((hothers m hm).trans hp)

theorem sameAccount_refl (p : Position) : SameAccount p p := ⟨rfl, rfl, rfl, rfl, rfl, rfl⟩

/-- Writing fields the books do not read keeps them. -/
theorem books_touched {w w' : World} (hw : Books w) {mint : Mint} {p p' : Position}
    (hp : w.ledger.position? mint = some p) (hs : SameAccount p p')
    (hpos : w'.ledger.positions = w.ledger.positions.set mint p')
    (hcash : w'.ledger.cashLamports = w.ledger.cashLamports) (hrec : Records w w' [] [] []) :
    Books w' := by
  have hbuys : buys w'.recorded = buys w.recorded := by rw [hrec.buys, List.append_nil]
  have hsells : sells w'.recorded = sells w.recorded := by rw [hrec.sells, List.append_nil]
  have hget := position?_of_set hpos
  refine ⟨?_, ?_, ?_, by rw [hbuys]; exact hw.buyOnce, ?_, ?_⟩
  · have := hw.total
    unfold realizedPnl at this ⊢
    rw [hpos, hcash, Dict.sumOf_set_of_get _ hp, hs.remainingCostLamports, hsells]
    omega
  · intro b hb; rw [hbuys] at hb; exact hrec.ids (hw.buysIssued b hb)
  · intro s h; rw [hsells] at h; exact hrec.ids (hw.sellsIssued s h)
  · intro m q hq
    rw [hget] at hq
    split_ifs at hq with hm
    · cases hq; subst hm
      exact (hw.opened m p hp).transfer hs (by rw [hbuys]; exact List.Subset.refl _) (hrec.quiet _)
    · exact (hw.opened m q hq).transfer (sameAccount_refl q) (by rw [hbuys]; exact List.Subset.refl _)
        (hrec.quiet _)
  · intro b hb hno
    rw [hbuys] at hb
    refine (hw.closed b hb (hno.back (fun m hm => by rw [hget, if_neg hm]) fun q hq => ?_)).transfer
      (hrec.quiet _)
    rw [hp] at hq; cases hq
    rw [← hs.positionId]
    exact hno mint p' (by rw [hget, if_pos rfl])

/-- A call that moves nothing keeps the books. -/
theorem books_idle {w w' : World} (hw : Books w) (hpos : w'.ledger.positions = w.ledger.positions)
    (hcash : w'.ledger.cashLamports = w.ledger.cashLamports) (hrec : Records w w' [] [] []) :
    Books w' := by
  have hbuys : buys w'.recorded = buys w.recorded := by rw [hrec.buys, List.append_nil]
  have hsells : sells w'.recorded = sells w.recorded := by rw [hrec.sells, List.append_nil]
  have hget := position?_of_positions hpos
  refine ⟨?_, ?_, ?_, by rw [hbuys]; exact hw.buyOnce, ?_, ?_⟩
  · have := hw.total
    unfold realizedPnl at this ⊢
    rw [hpos, hcash, hsells]
    exact this
  · intro b hb; rw [hbuys] at hb; exact hrec.ids (hw.buysIssued b hb)
  · intro s h; rw [hsells] at h; exact hrec.ids (hw.sellsIssued s h)
  · intro m q hq
    rw [hget] at hq
    exact (hw.opened m q hq).transfer (sameAccount_refl q) (by rw [hbuys]; exact List.Subset.refl _)
      (hrec.quiet _)
  · intro b hb hno
    rw [hbuys] at hb
    exact (hw.closed b hb fun m q hq => hno m q ((hget m).trans hq)).transfer (hrec.quiet _)

/-- No sale is recorded under an id that was never drawn. -/
theorem Books.sellsOf_fresh {w : World} (hw : Books w) {id : Uuid} (h : id ∉ w.ids) :
    sellsOf w.recorded id = [] := by
  refine List.filter_eq_nil_iff.2 fun s hs => ?_
  simp only [decide_eq_true_eq]
  rintro rfl
  exact h (hw.sellsIssued s hs)

/-- A buy opens an account with its whole cost as basis and no sale. -/
theorem books_bought {w w' : World} (hw : Books w) {r : BuyRequest} {route : RouteType} {id : Uuid}
    {round : Nat} {at_ : IsoTime} (hfree : w.ledger.position? r.mint = none) (hfresh : id ∉ w.ids)
    (hcost : 0 < r.costLamports) (hamount : 0 < r.tokenAmountRaw)
    (hpos : w'.ledger.positions = w.ledger.positions.set r.mint (r.position route id round at_))
    (hcash : w'.ledger.cashLamports = w.ledger.cashLamports - r.costLamports) (hid : id ∈ w'.ids)
    (hrec : Records w w' [] [r.record route id round] []) : Books w' := by
  have hbuys : buys w'.recorded = buys w.recorded ++ [r.record route id round] := hrec.buys
  have hsub : buys w.recorded ⊆ buys w'.recorded := by rw [hbuys]; exact List.subset_append_left ..
  have hsells : sells w'.recorded = sells w.recorded := by rw [hrec.sells, List.append_nil]
  have hget := position?_of_set hpos
  have hnone : sellsOf w'.recorded id = [] := (hrec.quiet id).trans (hw.sellsOf_fresh hfresh)
  refine ⟨?_, ?_, ?_, ?_, ?_, ?_⟩
  · have h := hw.total
    have hrem : (r.position route id round at_).remainingCostLamports = r.costLamports := rfl
    unfold realizedPnl at h ⊢
    rw [hpos, hcash, Dict.sumOf_set_of_none _ hfree, hsells, hrem]
    omega
  · intro b hb
    rw [hbuys] at hb
    rcases List.mem_append.1 hb with hb | hb
    · exact hrec.ids (hw.buysIssued b hb)
    · rw [List.mem_singleton.1 hb]; exact hid
  · intro s h; rw [hsells] at h; exact hrec.ids (hw.sellsIssued s h)
  · rw [hbuys, List.map_append, List.nodup_append]
    refine ⟨hw.buyOnce, List.nodup_singleton _, fun a ha b hb => ?_⟩
    rintro rfl
    obtain ⟨b', hb', rfl⟩ := List.mem_map.1 ha
    have hlast : b'.positionId = id := List.mem_singleton.1 hb
    exact hfresh (hlast ▸ hw.buysIssued b' hb')
  · intro m q hq
    rw [hget] at hq
    split_ifs at hq with hm
    · cases hq; subst hm
      refine ⟨⟨_, by rw [hbuys]; exact List.mem_append_right _ List.mem_cons_self, rfl, rfl, rfl, rfl⟩,
        hamount, hcost, ?_, ?_, ?_⟩
      · show soldAmountOf w'.recorded id + r.tokenAmountRaw = r.tokenAmountRaw
        unfold soldAmountOf; rw [hnone]; simp
      · show proceedsOf w'.recorded id = 0
        unfold proceedsOf; rw [hnone]; rfl
      · show realizedPnlOf w'.recorded id = 0 - (r.costLamports - r.costLamports)
        unfold realizedPnlOf; rw [hnone]; simp
    · exact (hw.opened m q hq).transfer (sameAccount_refl q) hsub (hrec.quiet _)
  · intro b hb hno
    rw [hbuys] at hb
    rcases List.mem_append.1 hb with hb | hb
    · refine (hw.closed b hb (hno.back (fun m hm => by rw [hget, if_neg hm]) fun q hq => ?_)).transfer
        (hrec.quiet _)
      rw [hfree] at hq; cases hq
    · -- the position just bought is open
      rw [List.mem_singleton.1 hb] at hno
      exact absurd rfl (hno r.mint _ (by rw [hget, if_pos rfl]))

/-- The sums of the position sold from, after the sale. -/
theorem Records.sums {w w' : World} {s : SellRecord} {bought : List BuyRecord}
    {sales : List (SellRequest × SellRecord)} (h : Records w w' [s] bought sales) :
    soldAmountOf w'.recorded s.positionId = soldAmountOf w.recorded s.positionId + s.tokenAmountRaw ∧
    proceedsOf w'.recorded s.positionId = proceedsOf w.recorded s.positionId + s.proceedsLamports ∧
    realizedPnlOf w'.recorded s.positionId =
      realizedPnlOf w.recorded s.positionId + s.realizedPnlLamports := by
  have hs := h.sale s.positionId
  rw [if_pos rfl] at hs
  unfold soldAmountOf proceedsOf realizedPnlOf
  rw [hs]
  simp

/-- A sale of less than the whole position leaves its account open. -/
theorem OpenAccount.sold {w w' : World} {r : SellRequest} {p p' : Position} {sold : Int}
    (h : OpenAccount w r.mint p) (hsold : 0 < sold) (hlt : sold < p.tokenAmountRaw)
    (hs : SameAccount (p.sold sold r.proceedsLamports) p')
    (hrec : Records w w' [r.record p sold] [] [(r, r.record p sold)]) : OpenAccount w' r.mint p' := by
  obtain ⟨b, hb, hbm, hbi, hbc, hba⟩ := h.bought
  obtain ⟨hsum1, hsum2, hsum3⟩ := hrec.sums
  have hbuys : buys w'.recorded = buys w.recorded := by rw [hrec.buys, List.append_nil]
  have hid : p'.positionId = (r.record p sold).positionId := hs.positionId
  have hamount : p'.tokenAmountRaw = p.tokenAmountRaw - sold := hs.tokenAmountRaw
  have hbasis : p'.remainingCostLamports = p.remainingCostLamports - p.costReleased sold :=
    hs.remainingCostLamports
  refine ⟨⟨b, by rw [hbuys]; exact hb, hbm, hbi.trans hs.positionId.symm,
      hbc.trans hs.entryCostLamports.symm, hba.trans hs.entryTokenAmountRaw.symm⟩, by omega, ?_,
    ?_, ?_, ?_⟩
  · have := costReleased_lt h.costPos hlt hsold
    omega
  · rw [hid, hsum1, hamount, hs.entryTokenAmountRaw]
    have := h.amount
    simp only [SellRequest.record, Position.sold]
    omega
  · rw [hid, hsum2, hs.cumulativeProceedsLamports]
    have := h.proceeds
    simp only [SellRequest.record, Position.sold]
    omega
  · rw [hid, hsum3, hs.cumulativeProceedsLamports, hs.entryCostLamports, hbasis]
    have := h.pnl
    simp only [SellRequest.record, Position.sold]
    omega

/-- A sale of the whole position closes the account of its BUY. -/
theorem OpenAccount.soldOut {w w' : World} {r : SellRequest} {p : Position} {b : BuyRecord}
    (h : OpenAccount w r.mint p) (honce : ((buys w.recorded).map BuyRecord.positionId).Nodup)
    (hb : b ∈ buys w.recorded) (hbp : b.positionId = p.positionId)
    (hrec : Records w w' [r.record p p.tokenAmountRaw] [] [(r, r.record p p.tokenAmountRaw)]) :
    ClosedAccount w' b := by
  obtain ⟨b', hb', -, hbi, hbc, hba⟩ := h.bought
  obtain ⟨hsum1, hsum2, hsum3⟩ := hrec.sums
  have hbb : b = b' := List.inj_on_of_nodup_map honce hb hb' (hbp.trans hbi.symm)
  have hid : b.positionId = (r.record p p.tokenAmountRaw).positionId := hbp
  constructor
  · rw [hid, hsum1, hbb, hba]
    have := h.amount
    simp only [SellRequest.record]
    omega
  · rw [hid, hsum2, hsum3, hbb, hbc]
    have h1 := h.pnl
    have h2 := h.proceeds
    simp only [SellRequest.record, costReleased_all h.amountPos]
    omega

/-- The open cost basis after a sale: the released part is gone. -/
theorem sumOf_sold {positions : Dict Mint Position} {mint : Mint} {p p' : Position} {sold : Int}
    (hp : positions.get? mint = some p) (hpos : 0 < p.tokenAmountRaw) (hle : sold ≤ p.tokenAmountRaw)
    (hamount : p'.tokenAmountRaw = p.tokenAmountRaw - sold)
    (hbasis : p'.remainingCostLamports = p.remainingCostLamports - p.costReleased sold) :
    (if p'.tokenAmountRaw ≤ 0 then (positions.set mint p').erase mint else positions.set mint p').sumOf
        Position.remainingCostLamports =
      positions.sumOf Position.remainingCostLamports - p.costReleased sold := by
  split_ifs with hz
  · -- the last token went: the whole basis is released
    have hall : sold = p.tokenAmountRaw := by omega
    rw [Dict.sumOf_erase _ (Dict.get?_set_self ..), Dict.sumOf_set_of_get _ hp, hbasis, hall,
      costReleased_all hpos]
    omega
  · rw [Dict.sumOf_set_of_get _ hp, hbasis]; omega

/-- A sale moves the released basis into the profit; selling the last token closes the account. -/
theorem books_sold {w w' : World} (hw : Books w) {r : SellRequest} {p p' : Position} {sold : Int}
    (hp : w.ledger.position? r.mint = some p) (hmin : sold = min r.tokenAmountRaw p.tokenAmountRaw)
    (hsold : 0 < sold) (hs : SameAccount (p.sold sold r.proceedsLamports) p')
    (hpos : w'.ledger.positions =
      if p'.tokenAmountRaw ≤ 0 then (w.ledger.positions.set r.mint p').erase r.mint
      else w.ledger.positions.set r.mint p')
    (hcash : w'.ledger.cashLamports = w.ledger.cashLamports + r.proceedsLamports)
    (hrec : Records w w' [r.record p sold] [] [(r, r.record p sold)]) : Books w' := by
  have hbuys : buys w'.recorded = buys w.recorded := by rw [hrec.buys, List.append_nil]
  have hopen := hw.opened r.mint p hp
  have hle : sold ≤ p.tokenAmountRaw := by omega
  have hamount : p'.tokenAmountRaw = p.tokenAmountRaw - sold := hs.tokenAmountRaw
  have hget := position?_of_sold hpos
  refine ⟨?_, ?_, ?_, by rw [hbuys]; exact hw.buyOnce, ?_, ?_⟩
  · have h := hw.total
    have hpnl : realizedPnl w'.recorded =
        realizedPnl w.recorded + (r.proceedsLamports - p.costReleased sold) := by
      unfold realizedPnl
      rw [hrec.sells]
      simp [SellRequest.record]
    rw [hpos, sumOf_sold hp hopen.amountPos hle hamount hs.remainingCostLamports, hcash, hpnl]
    omega
  · intro b hb; rw [hbuys] at hb; exact hrec.ids (hw.buysIssued b hb)
  · intro s h
    rw [hrec.sells] at h
    rcases List.mem_append.1 h with h | h
    · exact hrec.ids (hw.sellsIssued s h)
    · obtain ⟨b, hb, -, hi, -⟩ := hopen.bought
      rw [List.mem_singleton.1 h]
      have hbought := hw.buysIssued b hb
      rw [hi] at hbought
      exact hrec.ids hbought
  · intro m q hq
    rw [hget] at hq
    split_ifs at hq with hm hz
    · cases hq; subst hm
      exact hopen.sold hsold (by omega) hs hrec
    · refine (hw.opened m q hq).transfer (sameAccount_refl q) (by rw [hbuys]; exact List.Subset.refl _) ?_
      rw [hrec.sale, if_neg, List.append_nil]
      intro hid
      exact hm (hw.idInjective hq hp hid.symm)
  · intro b hb hno
    rw [hbuys] at hb
    by_cases hbp : b.positionId = p.positionId
    · -- this account: it is closed only by the sale of the last token
      have hz : p'.tokenAmountRaw ≤ 0 := by
        by_contra hz
        exact hno r.mint p' (by rw [hget, if_pos rfl, if_neg hz]) (hs.positionId.trans hbp.symm)
      obtain rfl : sold = p.tokenAmountRaw := by omega
      exact hopen.soldOut hw.buyOnce hb hbp hrec
    · refine (hw.closed b hb (hno.back (fun m hm => by rw [hget, if_neg hm]) fun q hq => ?_)).transfer ?_
      · rw [hp] at hq; cases hq
        exact fun h => hbp h.symm
      · rw [hrec.sale, if_neg, List.append_nil]
        exact fun h => hbp h.symm

theorem books_step {w w' : World} {op : Op} (hw : Books w) (h : w.step op = some w') : Books w' := by
  cases step_entry h with
  | idle hpos hcash hrec => exact books_idle hw hpos hcash hrec
  | touched hp hs hpos hcash hrec => exact books_touched hw hp hs hpos hcash hrec
  | bought hfree hfresh hcost hamount _ hpos hcash hid hrec =>
    exact books_bought hw hfree hfresh hcost hamount hpos hcash hid hrec
  | sold _ hp _ hmin hsold hs hpos hcash hrec => exact books_sold hw hp hmin hsold hs hpos hcash hrec

/-- The books are kept in every run. -/
theorem run_books {ok : World → Op → Prop} {ops : List Op} {w : World}
    (h : Run World.step ok World.start ops w) : Books w :=
  h.invariant (fun _ _ _ hw _ hs => books_step hw hs) books_start

/-! ## Conservation -/

/-- The sale proceeds a call reports are not negative. -/
def proceedsNonneg (_ : World) (op : Op) : Prop :=
  ∀ r ∈ op.sale?, 0 ≤ r.proceedsLamports

theorem cash_step {w w' : World} {op : Op} (hw : 0 ≤ w.ledger.cashLamports)
    (hop : proceedsNonneg w op) (h : w.step op = some w') : 0 ≤ w'.ledger.cashLamports := by
  cases step_entry h with
  | idle _ hcash _ => rw [hcash]; exact hw
  | touched _ _ _ hcash _ => rw [hcash]; exact hw
  | bought _ _ _ _ hc _ hcash _ _ => rw [hcash]; omega
  | @sold r _ _ _ hsale _ _ _ _ _ _ hcash _ =>
    have := hop r hsale
    rw [hcash]; omega

/-- Accounting conservation. In every run whose sales report no negative proceeds: the cash is
never negative; cash and open cost basis less all realized profit is the initial balance; the
profit of an open position is what its sales brought in less the basis they released; and the
profit of a closed one is exactly its proceeds less its entry cost. -/
theorem accounting_conserved {ops : List Op} {w : World}
    (h : Run World.step proceedsNonneg World.start ops w) :
    0 ≤ w.ledger.cashLamports ∧
    w.ledger.cashLamports + w.ledger.positions.sumOf Position.remainingCostLamports -
      realizedPnl w.recorded = initialPaperLamports ∧
    (∀ mint p, w.ledger.position? mint = some p →
      proceedsOf w.recorded p.positionId = p.cumulativeProceedsLamports ∧
      realizedPnlOf w.recorded p.positionId =
        p.cumulativeProceedsLamports - (p.entryCostLamports - p.remainingCostLamports)) ∧
    (∀ b ∈ buys w.recorded, NotOpen w b.positionId →
      realizedPnlOf w.recorded b.positionId =
        proceedsOf w.recorded b.positionId - b.costLamports) := by
  have hw := run_books h
  refine ⟨?_, hw.total, ?_, fun b hb hno => (hw.closed b hb hno).pnl⟩
  · exact h.invariant (fun _ _ _ hw hop hs => cash_step hw hop hs) (by decide)
  · intro mint p hp
    exact ⟨(hw.opened mint p hp).proceeds, (hw.opened mint p hp).pnl⟩

/-- A buy, a partial sale at a gain and a full sale at a loss. -/
def roundTrip : List Op :=
  [.buy ⟨"mint", 1001, 10, none, none, 0, "A", 0, "", none, none⟩ ⟨0⟩ 0,
    .claim "mint" ⟨0⟩ .takeProfit30Sell80 ⟨1⟩,
    .sell ⟨"mint", 7, 950, .takeProfit30Sell80, some ⟨0⟩, some ⟨1⟩⟩ 1,
    .claim "mint" ⟨0⟩ .tpBreakEven ⟨2⟩,
    .sell ⟨"mint", 3, 40, .tpBreakEven, some ⟨0⟩, some ⟨2⟩⟩ 2]

instance (w : World) (op : Op) : Decidable (proceedsNonneg w op) :=
  inferInstanceAs (Decidable (∀ r ∈ op.sale?, 0 ≤ r.proceedsLamports))

theorem accounting_conserved_roundTrip : ∃ w : World, w.sales.length = 2 ∧
    realizedPnl w.recorded = -11 ∧
    w.ledger.cashLamports + w.ledger.positions.sumOf Position.remainingCostLamports -
      realizedPnl w.recorded = initialPaperLamports := by
  obtain ⟨w, hrun, hsales, hpnl⟩ : ∃ w, Run World.step proceedsNonneg World.start roundTrip w ∧
      w.sales.length = 2 ∧ realizedPnl w.recorded = -11 := Run.exists_of_any (by decide +kernel)
  exact ⟨w, hsales, hpnl, (accounting_conserved hrun).2.1⟩

end Aibot.Risk
