/-
What one call does to a world: which position it writes, how the cash moves, and what it records.
`Turn` lists the cases and `step_turn` shows the list is complete, so the invariants of the runs
(the books, the exit claims, the exit flows) are proved by cases on it.
-/
import Aibot.Risk.History

namespace Aibot.Risk

open Aibot.Store

/-! ## What a call records -/

theorem sells_append (events new : List Event) : sells (events ++ new) = sells events ++ sells new :=
  List.filterMap_append ..

theorem buys_append (events new : List Event) : buys (events ++ new) = buys events ++ buys new :=
  List.filterMap_append ..

/-- What a call records: the new SELL and BUY records, and the sales. -/
structure Records (w w' : World) (sold : List SellRecord) (bought : List BuyRecord)
    (sales : List (SellRequest × SellRecord)) : Prop where
  sells : sells w'.recorded = sells w.recorded ++ sold
  buys : buys w'.recorded = buys w.recorded ++ bought
  sales : w'.sales = w.sales ++ sales
  ids : w.ids ⊆ w'.ids

/-- What a call records, from the events it appends. -/
theorem records_after {w : World} {op : Op} {new : List Event} {ledger : Ledger}
    (hledger : (op.run w.ledger).2 = ledger) (hnew : newEvents w.ledger ledger = new) :
    Records w (w.after op) (sells new) (buys new)
      (op.sale?.toList.flatMap fun r => (sells new).map (r, ·)) := by
  subst hledger hnew
  exact ⟨sells_append .., buys_append .., rfl, List.subset_append_left ..⟩

/-- A call that appends no SELL and no BUY event records nothing. -/
theorem records_quiet {w : World} {op : Op} {new : List Event} {ledger : Ledger}
    (hledger : (op.run w.ledger).2 = ledger) (hnew : newEvents w.ledger ledger = new)
    (hsells : sells new = []) (hbuys : buys new = []) : Records w (w.after op) [] [] [] := by
  have h := records_after hledger hnew
  rw [hsells, hbuys] at h
  exact ⟨h.sells, h.buys, h.sales.trans (by simp), h.ids⟩

/-! ## The cases -/

/-- The calls that write fields of a position and neither claim, release nor sell it. -/
inductive Touch : Op → Position → Position → Prop
  | marked {mint : Mint} {positionId : Uuid} {value now : Int} {p : Position} :
      p.positionId = positionId → 0 ≤ value →
      Touch (.mark mint positionId value now) p (p.marked value now)
  | lifecycled {mint : Mint} {positionId : Uuid} {items : List LifecycleItem} {p : Position} :
      p.positionId = positionId →
      Touch (.lifecycle mint positionId items) p { p with version := p.version + 1 }
  | armed {mint : Mint} {positionId : Uuid} {p : Position} :
      p.positionId = positionId → p.takeProfitDone = true →
      Touch (.breakEvenFloor mint positionId) p
        { p with
          stopLossRatio := breakEvenStopRatio
          breakEvenFloorActive := true
          version := p.version + 1 }
  | quoteFailed {mint : Mint} {positionId : Uuid} {error : String} {now : Int} {p : Position} :
      p.positionId = positionId →
      Touch (.quoteFailure mint positionId error now) p (p.quoteFailed error now)

/-- The mint a call is about. -/
def Op.mint : Op → Mint
  | .buy r _ _ => r.mint
  | .sell r _ => r.mint
  | .rejection mint .. | .rpcSkip mint .. | .claim mint .. | .release mint .. | .mark mint .. => mint
  | .lifecycle mint .. | .breakEvenFloor mint .. | .quoteFailure mint .. => mint

/-- The position `p` as a sale of `sold` of its tokens leaves it. -/
def SellRequest.leaves (r : SellRequest) (p : Position) (sold : Int) : Position :=
  (p.sold sold r.proceedsLamports).markTakeProfit r.reason

/-- What a call does, and what it answers. -/
inductive Turn (w w' : World) : Op → Ret → Prop
  | idle {op : Op} {ret : Ret} : ret.isRefusal →
      w'.ledger.positions = w.ledger.positions → w'.ledger.cashLamports = w.ledger.cashLamports →
      Records w w' [] [] [] → Turn w w' op ret
  | bought {r : BuyRequest} {route : RouteType} {positionId : Uuid} {round : Nat} {now : Int} :
      r.check = .ok route → w.ledger.position? r.mint = none → positionId ∉ w.ids →
      r.costLamports ≤ w.ledger.cashLamports →
      w'.ledger.positions =
        w.ledger.positions.set r.mint (r.position route positionId round (.instant now)) →
      w'.ledger.cashLamports = w.ledger.cashLamports - r.costLamports →
      Records w w' [] [r.record route positionId round] [] →
      Turn w w' (.buy r positionId now) (.bought positionId)
  | claimed {mint : Mint} {positionId exitId : Uuid} {reason : ExitReason} {p : Position} :
      w.ledger.positionWithId? mint positionId = some p → p.riskState ≠ .exitPending →
      exitId ∉ w.ids → w'.ledger.positions = w.ledger.positions.set mint (p.claimed exitId reason) →
      w'.ledger.cashLamports = w.ledger.cashLamports → Records w w' [] [] [] →
      Turn w w' (.claim mint positionId reason exitId) (.claimed (some (exitId, p.tokenAmountRaw)))
  | released {mint : Mint} {positionId exitId : Uuid} {degraded : Bool} {p : Position} :
      w.ledger.positionWithId? mint positionId = some p → p.pendingExitId = some exitId →
      w'.ledger.positions = w.ledger.positions.set mint (p.released degraded) →
      w'.ledger.cashLamports = w.ledger.cashLamports → Records w w' [] [] [] →
      Turn w w' (.release mint positionId exitId degraded) .done
  | touched {op : Op} {ret : Ret} {p p' : Position} : ret.isRefusal →
      w.ledger.position? op.mint = some p → Touch op p p' →
      w'.ledger.positions = w.ledger.positions.set op.mint p' →
      w'.ledger.cashLamports = w.ledger.cashLamports → Records w w' [] [] [] → Turn w w' op ret
  | sold {r : SellRequest} {now : Int} {p : Position} {sold : Int}
      {closed : Option (ObservationId × Uuid)} :
      w.ledger.position? r.mint = some p → r.matches p = true →
      sold = min r.tokenAmountRaw p.tokenAmountRaw → 0 < sold →
      w'.ledger.positions =
        (if (r.leaves p sold).tokenAmountRaw ≤ 0 then
          (w.ledger.positions.set r.mint (r.leaves p sold)).erase r.mint
          else w.ledger.positions.set r.mint (r.leaves p sold)) →
      w'.ledger.cashLamports = w.ledger.cashLamports + r.proceedsLamports →
      Records w w' [r.record p sold] [] [(r, r.record p sold)] →
      Turn w w' (.sell r now) (.sold ⟨true, closed⟩)

theorem settle_frame (r : SellRequest) (p : Position) (sold now : Int) (ledger : Ledger) :
    (r.settle p sold now ledger).cashLamports = ledger.cashLamports + r.proceedsLamports ∧
    (r.settle p sold now ledger).nextEventSeq = ledger.nextEventSeq + 1 ∧
    (r.settle p sold now ledger).events =
      ledger.events ++ [⟨ledger.nextEventSeq, .instant now, .sell (r.record p sold)⟩] := by
  unfold SellRequest.settle
  simp only
  split_ifs <;> exact ⟨rfl, rfl, rfl⟩

theorem settle_positions (r : SellRequest) (p : Position) (sold now : Int) (ledger : Ledger) :
    (r.settle p sold now ledger).positions =
      if (r.leaves p sold).tokenAmountRaw ≤ 0 then (ledger.positions.set r.mint (r.leaves p sold)).erase r.mint
      else ledger.positions.set r.mint (r.leaves p sold) := by
  unfold SellRequest.settle SellRequest.leaves
  simp only
  split_ifs <;> rfl

/-- Every call is one of the cases. -/
theorem step_turn {w w' : World} {op : Op} (h : w.step op = some w') :
    Turn w w' op (op.run w.ledger).1 := by
  obtain ⟨hfresh, rfl⟩ := World.step_eq_some h
  obtain ⟨ledger', v, heff, hledger⟩ := op.run_effect w.ledger
  generalize (op.run w.ledger).1 = ret at heff ⊢
  have hpos : (w.after op).ledger.positions = ledger'.positions := by
    show (op.run w.ledger).2.positions = _
    rw [hledger]
  have hcash : (w.after op).ledger.cashLamports = ledger'.cashLamports := by
    show (op.run w.ledger).2.cashLamports = _
    rw [hledger]
  -- a call that only writes a position appends no event
  have quiet {mint : Mint} {p' : Position} (hl : ledger' = w.ledger.setPosition mint p') :
      Records w (w.after op) [] [] [] := by
    subst hl
    exact records_quiet hledger
      (newEvents_of_append w.ledger.events [] (by simp [Ledger.setPosition]) rfl) rfl rfl
  cases heff with
  | refused hret =>
    exact .idle hret hpos hcash
      (records_quiet hledger (newEvents_of_append w.ledger.events [] (by simp) rfl) rfl rfl)
  | bought hr hfree _ hc =>
    exact .bought hr hfree (hfresh _ rfl) hc hpos hcash
      (records_after hledger (newEvents_of_append w.ledger.events _ rfl rfl))
  | @noted _ now body hs hb =>
    have hnew := newEvents_version w.ledger (w.ledger.appendEvent (.instant now) body).trimEvents v
    rw [newEvents_trim] at hnew
    exact .idle refusal_done (hpos.trans (by simp [Ledger.trimEvents, Ledger.appendEvent]))
      (hcash.trans (by simp [Ledger.trimEvents, Ledger.appendEvent]))
      (records_quiet hledger hnew (by simp [sells, hs]) (by simp [buys, hb]))
  | claimed hp hs => exact .claimed hp hs (hfresh _ rfl) hpos hcash (quiet rfl)
  | released hp he => exact .released hp he hpos hcash (quiet rfl)
  | marked hp hv =>
    obtain ⟨hp, hid⟩ := positionWithId?_eq_some.1 hp
    exact .touched refusal_done hp (.marked hid hv) hpos hcash (quiet rfl)
  | armed hp ht =>
    obtain ⟨hp, hid⟩ := positionWithId?_eq_some.1 hp
    exact .touched ⟨rfl, rfl⟩ hp (.armed hid ht) hpos hcash (quiet rfl)
  | quoteFailed hp =>
    obtain ⟨hp, hid⟩ := positionWithId?_eq_some.1 hp
    exact .touched ⟨rfl, rfl⟩ hp (.quoteFailed hid) hpos hcash (quiet rfl)
  | @lifecycled mint positionId items p hp =>
    obtain ⟨hp, hid⟩ := positionWithId?_eq_some.1 hp
    obtain ⟨new, hfold, hsells, hbuys, -⟩ := foldl_appendEvent mint positionId items w.ledger
    rw [hfold] at hpos hcash hledger
    exact .touched refusal_done hp (.lifecycled hid) hpos hcash
      (records_quiet hledger (newEvents_of_append w.ledger.events new rfl rfl) hsells hbuys)
  | @sold r now p _ hp hm hsold =>
    obtain ⟨hc, hn, he⟩ := settle_frame r p (min r.tokenAmountRaw p.tokenAmountRaw) now w.ledger
    exact .sold hp hm rfl hsold (hpos.trans (settle_positions ..)) (hcash.trans hc)
      (records_after hledger (newEvents_of_append w.ledger.events _ he hn))

/-- The log gains the call and its answer. -/
theorem step_log {w w' : World} {op : Op} (h : w.step op = some w') :
    w'.log = w.log ++ [(op, (op.run w.ledger).1)] ∧ w'.ids = w.ids ++ op.freshId.toList := by
  obtain ⟨-, rfl⟩ := World.step_eq_some h
  exact ⟨rfl, rfl⟩

/-- Writing a position that keeps its id, its amount, its take-profit flag and its pending exit. -/
structure SameClaim (p p' : Position) : Prop where
  positionId : p'.positionId = p.positionId
  tokenAmountRaw : p'.tokenAmountRaw = p.tokenAmountRaw
  takeProfitDone : p'.takeProfitDone = p.takeProfitDone
  pendingExitId : p'.pendingExitId = p.pendingExitId

theorem Touch.sameClaim {op : Op} {p p' : Position} (h : Touch op p p') : SameClaim p p' := by
  cases h with
  | marked | lifecycled | armed | quoteFailed => exact ⟨rfl, rfl, rfl, rfl⟩

/-- No touching operation starts an exit. -/
theorem Touch.exitPending {op : Op} {p p' : Position} (h : Touch op p p')
    (hs : p'.riskState = .exitPending) : p.riskState = .exitPending := by
  cases h with
  | lifecycled | armed => exact hs
  | marked =>
    by_contra hne
    simp [Position.marked, hne] at hs
  | quoteFailed =>
    simp only [Position.quoteFailed] at hs
    split_ifs at hs
    exact hs

/-- A sale clears the pending exit. -/
theorem leaves_pending (r : SellRequest) (p : Position) (sold : Int) :
    (r.leaves p sold).pendingExitId = none ∧ (r.leaves p sold).riskState = .normal := by
  unfold SellRequest.leaves Position.markTakeProfit
  split_ifs <;> exact ⟨rfl, rfl⟩

theorem leaves_positionId (r : SellRequest) (p : Position) (sold : Int) :
    (r.leaves p sold).positionId = p.positionId := by
  unfold SellRequest.leaves Position.markTakeProfit
  split_ifs <;> rfl

/-! ## Looking positions up after a call -/

theorem position?_of_positions {w w' : World} (h : w'.ledger.positions = w.ledger.positions)
    (mint : Mint) : w'.ledger.position? mint = w.ledger.position? mint := by
  unfold Ledger.position?; rw [h]

theorem position?_of_set {w w' : World} {mint : Mint} {p : Position}
    (h : w'.ledger.positions = w.ledger.positions.set mint p) (m : Mint) :
    w'.ledger.position? m = if m = mint then some p else w.ledger.position? m := by
  unfold Ledger.position?; rw [h, Dict.get?_set]

/-- After a sale the position is gone with its last token, and otherwise what the sale left. -/
theorem position?_of_sold {w w' : World} {mint : Mint} {p : Position}
    (h : w'.ledger.positions = if p.tokenAmountRaw ≤ 0 then (w.ledger.positions.set mint p).erase mint
      else w.ledger.positions.set mint p) (m : Mint) :
    w'.ledger.position? m =
      if m = mint then (if p.tokenAmountRaw ≤ 0 then none else some p) else w.ledger.position? m := by
  unfold Ledger.position?
  rw [h]
  by_cases hz : p.tokenAmountRaw ≤ 0 <;> by_cases hm : m = mint <;>
    simp [hz, hm, Dict.get?_set, Dict.get?_erase]

/-- What a call writes: the position it leaves at a mint. -/
inductive Written (w : World) : Op → Ret → Mint → Position → Prop
  | bought {r : BuyRequest} {route : RouteType} {positionId : Uuid} {round : Nat} {now : Int} :
      w.ledger.position? r.mint = none → positionId ∉ w.ids →
      Written w (.buy r positionId now) (.bought positionId) r.mint
        (r.position route positionId round (.instant now))
  | claimed {mint : Mint} {positionId exitId : Uuid} {reason : ExitReason} {p : Position} :
      w.ledger.position? mint = some p → p.positionId = positionId → p.riskState ≠ .exitPending →
      exitId ∉ w.ids →
      Written w (.claim mint positionId reason exitId) (.claimed (some (exitId, p.tokenAmountRaw))) mint
        (p.claimed exitId reason)
  | released {mint : Mint} {positionId exitId : Uuid} {degraded : Bool} {p : Position} :
      w.ledger.position? mint = some p → p.positionId = positionId → p.pendingExitId = some exitId →
      Written w (.release mint positionId exitId degraded) .done mint (p.released degraded)
  | touched {op : Op} {ret : Ret} {p p' : Position} : ret.isRefusal →
      w.ledger.position? op.mint = some p → Touch op p p' → Written w op ret op.mint p'
  | sold {r : SellRequest} {now : Int} {p : Position} {closed : Option (ObservationId × Uuid)} {sold : Int} :
      w.ledger.position? r.mint = some p → r.matches p = true →
      sold = min r.tokenAmountRaw p.tokenAmountRaw → 0 < sold →
      Written w (.sell r now) (.sold ⟨true, closed⟩) r.mint (r.leaves p sold)

/-- A position after a call was there before it, or is what the call wrote. -/
theorem position_step {w w' : World} {op : Op} (h : w.step op = some w') {mint : Mint} {p' : Position}
    (hp' : w'.ledger.position? mint = some p') :
    w.ledger.position? mint = some p' ∨ Written w op (op.run w.ledger).1 mint p' := by
  have hturn := step_turn h
  generalize (op.run w.ledger).1 = ret at hturn ⊢
  cases hturn with
  | idle _ hpos => exact .inl ((position?_of_positions hpos mint).symm.trans hp')
  | bought _ hfree hfresh _ hpos =>
    rw [position?_of_set hpos] at hp'
    split_ifs at hp' with hm
    · cases hp'; subst hm; exact .inr (.bought hfree hfresh)
    · exact .inl hp'
  | claimed hp hs hfresh hpos =>
    obtain ⟨hp, hid⟩ := positionWithId?_eq_some.1 hp
    rw [position?_of_set hpos] at hp'
    split_ifs at hp' with hm
    · cases hp'; subst hm; exact .inr (.claimed hp hid hs hfresh)
    · exact .inl hp'
  | released hp he hpos =>
    obtain ⟨hp, hid⟩ := positionWithId?_eq_some.1 hp
    rw [position?_of_set hpos] at hp'
    split_ifs at hp' with hm
    · cases hp'; subst hm; exact .inr (.released hp hid he)
    · exact .inl hp'
  | touched hret hp htouch hpos =>
    rw [position?_of_set hpos] at hp'
    split_ifs at hp' with hm
    · cases hp'; subst hm; exact .inr (.touched hret hp htouch)
    · exact .inl hp'
  | sold hp hmatch hmin hsold hpos =>
    rw [position?_of_sold hpos] at hp'
    split_ifs at hp' with hm
    · cases hp'; subst hm; exact .inr (.sold hp hmatch hmin hsold)
    · exact .inl hp'

/-- What a call does to a position that is open before it. -/
inductive Acted (w' : World) : Op → Ret → Mint → Position → Prop
  | claimed {mint : Mint} {positionId exitId : Uuid} {reason : ExitReason} {p : Position} :
      p.positionId = positionId → p.riskState ≠ .exitPending →
      Acted w' (.claim mint positionId reason exitId) (.claimed (some (exitId, p.tokenAmountRaw))) mint p
  | released {mint : Mint} {positionId exitId : Uuid} {degraded : Bool} {p : Position} :
      p.positionId = positionId → p.pendingExitId = some exitId →
      Acted w' (.release mint positionId exitId degraded) .done mint p
  | touched {op : Op} {ret : Ret} {p p' : Position} : Touch op p p' →
      w'.ledger.position? op.mint = some p' → Acted w' op ret op.mint p
  | sold {r : SellRequest} {now : Int} {p : Position} {closed : Option (ObservationId × Uuid)} :
      r.matches p = true → Acted w' (.sell r now) (.sold ⟨true, closed⟩) r.mint p

/-- An open position is left alone by a call, or the call acts on it. -/
theorem position_kept {w w' : World} {op : Op} (h : w.step op = some w') {mint : Mint} {p : Position}
    (hp : w.ledger.position? mint = some p) :
    w'.ledger.position? mint = some p ∨ Acted w' op (op.run w.ledger).1 mint p := by
  have hturn := step_turn h
  generalize (op.run w.ledger).1 = ret at hturn ⊢
  cases hturn with
  | idle _ hpos => exact .inl ((position?_of_positions hpos mint).trans hp)
  | @bought r _ _ _ _ _ hfree _ _ hpos =>
    have hm : mint ≠ r.mint := by rintro rfl; rw [hfree] at hp; cases hp
    exact .inl (by rw [position?_of_set hpos, if_neg hm]; exact hp)
  | @claimed m _ _ _ q hq hs _ hpos =>
    obtain ⟨hq, hid⟩ := positionWithId?_eq_some.1 hq
    by_cases hm : mint = m
    · subst hm; rw [hp] at hq; cases hq
      exact .inr (.claimed hid hs)
    · exact .inl (by rw [position?_of_set hpos, if_neg hm]; exact hp)
  | @released m _ _ _ q hq he hpos =>
    obtain ⟨hq, hid⟩ := positionWithId?_eq_some.1 hq
    by_cases hm : mint = m
    · subst hm; rw [hp] at hq; cases hq
      exact .inr (.released hid he)
    · exact .inl (by rw [position?_of_set hpos, if_neg hm]; exact hp)
  | touched _ hq htouch hpos =>
    by_cases hm : mint = op.mint
    · subst hm; rw [hp] at hq; cases hq
      exact .inr (.touched htouch (by rw [position?_of_set hpos, if_pos rfl]))
    · exact .inl (by rw [position?_of_set hpos, if_neg hm]; exact hp)
  | @sold r _ q _ _ hq hmatch _ _ hpos =>
    by_cases hm : mint = r.mint
    · subst hm; rw [hp] at hq; cases hq
      exact .inr (.sold hmatch)
    · exact .inl (by rw [position?_of_sold hpos, if_neg hm]; exact hp)

end Aibot.Risk
