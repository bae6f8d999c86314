/-
Sales under exit claims: the amount of a position does not move while its exit is pending, so a
sale made under a granted claim sells exactly what it asks for, once.
-/
import Aibot.Risk.Claims

namespace Aibot.Risk

open Aibot.Store

/-! ## The invariant -/

/-- A sale is made under a granted claim: of its position, under its exit id, and of no more tokens
than it was granted. -/
def sellsUnderClaim (w : World) (op : Op) : Prop :=
  ∀ r ∈ op.sale?, ∃ g ∈ w.log.filterMap grantOf, r.mint = g.mint ∧ r.positionId = some g.positionId ∧
    r.exitId = some g.exitId ∧ r.tokenAmountRaw ≤ g.amount

/-- The pending exit of a position was granted to it with the amount it still has, and nothing was
sold under it. -/
def PendingGranted (w : World) (mint : Mint) (p : Position) : Prop :=
  ∀ e, p.pendingExitId = some e →
    ⟨mint, p.positionId, e, p.tokenAmountRaw⟩ ∈ w.log.filterMap grantOf ∧
      ∀ s ∈ w.sales, s.1.exitId ≠ some e

/-- What a sale under a claim may rely on. -/
structure SalesExact (w : World) : Prop where
  drawn : ∀ g ∈ w.log.filterMap grantOf, g.exitId ∈ w.ids
  once : ∀ g ∈ w.log.filterMap grantOf, ∀ g' ∈ w.log.filterMap grantOf, g.exitId = g'.exitId → g = g'
  pending : ∀ mint p, w.ledger.position? mint = some p → PendingGranted w mint p
  salesDrawn : ∀ s ∈ w.sales, ∃ e ∈ w.ids, s.1.exitId = some e
  salesOnce : (w.sales.map fun s => s.1.exitId).Nodup
  unclipped : ∀ s ∈ w.sales, s.2.tokenAmountRaw = s.1.tokenAmountRaw
  recorded : w.sales.map Prod.snd = sells w.recorded

/-- The part of the invariant about grants, after any call: a new grant draws a new id. -/
theorem grants_step {w w' : World} {op : Op} (hw : SalesExact w) (h : w.step op = some w') :
    (∀ g ∈ w'.log.filterMap grantOf, g.exitId ∈ w'.ids) ∧
    ∀ g ∈ w'.log.filterMap grantOf, ∀ g' ∈ w'.log.filterMap grantOf, g.exitId = g'.exitId → g = g' := by
  obtain ⟨hlog, hids⟩ := step_log h
  have hgrants : w'.log.filterMap grantOf = w.log.filterMap grantOf ++
      (grantOf (op, (op.run w.ledger).1)).toList := by
    rw [hlog, List.filterMap_append]
    congr 1
  cases hg : grantOf (op, (op.run w.ledger).1) with
  | none =>
    rw [hg, Option.toList_none, List.append_nil] at hgrants
    rw [hgrants]
    refine ⟨fun g hm => ?_, hw.once⟩
    rw [hids]; exact List.mem_append_left _ (hw.drawn g hm)
  | some new =>
    rw [hg] at hgrants
    obtain ⟨p, reason, -, -, -, -, hfresh, hdraw, -⟩ := grant_turn h hg
    have hnew : ∀ g ∈ w.log.filterMap grantOf, g.exitId ≠ new.exitId := by
      intro g hm he
      exact hfresh (he ▸ hw.drawn g hm)
    rw [hgrants, hids, hdraw]
    refine ⟨fun g hm => ?_, fun g hm g' hm' he => ?_⟩
    · rcases List.mem_append.1 hm with hm | hm
      · exact List.mem_append_left _ (hw.drawn g hm)
      · rw [Option.mem_toList.1 hm |> Option.some.inj]
        exact List.mem_append_right _ (List.mem_singleton.2 rfl)
    · rcases List.mem_append.1 hm with hm | hm <;> rcases List.mem_append.1 hm' with hm' | hm'
      · exact hw.once g hm g' hm' he
      · cases Option.mem_toList.1 hm'
        exact absurd he (hnew g hm)
      · cases Option.mem_toList.1 hm
        exact absurd he.symm (hnew g' hm')
      · cases Option.mem_toList.1 hm
        cases Option.mem_toList.1 hm'
        rfl

theorem PendingGranted.transfer {w w' : World} {mint : Mint} {p p' : Position}
    (h : PendingGranted w mint p) (hs : SameClaim p p')
    (hgrants : ∀ g ∈ w.log.filterMap grantOf, g ∈ w'.log.filterMap grantOf)
    (hsales : ∀ s ∈ w'.sales, s ∈ w.sales ∨ s.1.exitId ≠ p.pendingExitId) : PendingGranted w' mint p' := by
  intro e he
  rw [hs.pendingExitId] at he
  obtain ⟨hg, hno⟩ := h e he
  rw [hs.positionId, hs.tokenAmountRaw]
  refine ⟨hgrants _ hg, fun s hm => ?_⟩
  rcases hsales s hm with hm | hne
  · exact hno s hm
  · rw [← he]; exact hne

/-- A sale that matches its position sells what it asked for, under an exit id not sold under yet. -/
theorem SalesExact.sale {w : World} (hw : SalesExact w) {r : SellRequest} {p : Position} {now : Int}
    (hok : sellsUnderClaim w (.sell r now)) (hp : w.ledger.position? r.mint = some p)
    (hmatch : r.matches p = true) : ∃ e, r.exitId = some e ∧ p.pendingExitId = some e ∧
      r.tokenAmountRaw ≤ p.tokenAmountRaw ∧ e ∈ w.ids ∧ (∀ s ∈ w.sales, s.1.exitId ≠ some e) ∧
      ∀ mint q, w.ledger.position? mint = some q → q.pendingExitId = some e → mint = r.mint := by
  obtain ⟨g, hg, hmint, -, hexit, hamount⟩ := hok r rfl
  have hpend := (matches_iff.1 hmatch).2 _ hexit
  obtain ⟨hgp, hno⟩ := hw.pending r.mint p hp _ hpend
  have hsame := hw.once g hg _ hgp rfl
  have hle : r.tokenAmountRaw ≤ p.tokenAmountRaw := by rw [hsame] at hamount; exact hamount
  refine ⟨g.exitId, hexit, hpend, hle, hw.drawn g hg, hno, fun mint q hq hqe => ?_⟩
  obtain ⟨hgq, -⟩ := hw.pending mint q hq _ hqe
  rw [hmint, hw.once g hg _ hgq rfl]

/-- A position the call does not write keeps its grant, when no sale of the call is under it. -/
theorem SalesExact.kept {w w' : World} {op : Op} (hw : SalesExact w) (h : w.step op = some w')
    {mint : Mint} {p : Position} (hp : w.ledger.position? mint = some p)
    (hsales : ∀ s ∈ w'.sales, s ∈ w.sales ∨ s.1.exitId ≠ p.pendingExitId) : PendingGranted w' mint p :=
  (hw.pending mint p hp).transfer ⟨rfl, rfl, rfl, rfl⟩ (fun _ hg => grants_mono h hg) hsales

/-- No exit is pending: there is nothing to have been granted. -/
theorem PendingGranted.of_none {w : World} {mint : Mint} {p : Position} (h : p.pendingExitId = none) :
    PendingGranted w mint p := by
  intro e he
  rw [h] at he; cases he

/-- A claim grants a new exit id, under which nothing was sold, with the amount of the position. -/
theorem SalesExact.claimed {w w' : World} (hw : SalesExact w) {op : Op} {mint : Mint}
    {positionId exitId : Uuid} {p p' : Position} (hid : p'.positionId = positionId)
    (hamount : p'.tokenAmountRaw = p.tokenAmountRaw) (hexit : p'.pendingExitId = some exitId)
    (hfresh : exitId ∉ w.ids) (hsales : ∀ s ∈ w'.sales, s ∈ w.sales) {ret : Ret}
    (hlog : w'.log = w.log ++ [(op, ret)])
    (hgrant : grantOf (op, ret) = some ⟨mint, positionId, exitId, p.tokenAmountRaw⟩) :
    PendingGranted w' mint p' := by
  intro e he
  rw [hexit] at he; cases he
  refine ⟨?_, fun s hs hse => ?_⟩
  · rw [hlog, List.filterMap_append, hid, hamount]
    refine List.mem_append_right _ (List.mem_filterMap.2 ⟨_, List.mem_singleton.2 rfl, hgrant⟩)
  · obtain ⟨e', he', hse'⟩ := hw.salesDrawn s (hsales s hs)
    rw [hse] at hse'; cases hse'
    exact hfresh he'

/-- A call without a sale keeps the exactness of the sales, given the positions it leaves. -/
theorem salesExact_quiet {w w' : World} {op : Op} (hw : SalesExact w) (h : w.step op = some w')
    {bought : List BuyRecord} (hrec : Records w w' [] bought [])
    (hpending : ∀ mint p, w'.ledger.position? mint = some p → PendingGranted w' mint p) :
    SalesExact w' := by
  obtain ⟨hdrawn, honce⟩ := grants_step hw h
  have hsales : w'.sales = w.sales := by rw [hrec.sales, List.append_nil]
  have hsells : sells w'.recorded = sells w.recorded := by rw [hrec.sells, List.append_nil]
  refine ⟨hdrawn, honce, hpending, ?_, ?_, ?_, ?_⟩
  · intro s hs
    rw [hsales] at hs
    obtain ⟨e, he, hse⟩ := hw.salesDrawn s hs
    exact ⟨e, hrec.ids he, hse⟩
  · rw [hsales]; exact hw.salesOnce
  · rw [hsales]; exact hw.unclipped
  · rw [hsales, hsells]; exact hw.recorded

/-- A call without a sale that writes one position keeps the exactness of the sales, given what it
writes. -/
theorem salesExact_written {w w' : World} {op : Op} (hw : SalesExact w) (h : w.step op = some w')
    {bought : List BuyRecord} (hrec : Records w w' [] bought []) {m : Mint} {p' : Position}
    (hpos : w'.ledger.positions = w.ledger.positions.set m p')
    (hwritten : (∀ s ∈ w'.sales, s ∈ w.sales) → PendingGranted w' m p') : SalesExact w' := by
  have hsales : ∀ s ∈ w'.sales, s ∈ w.sales := by
    rw [hrec.sales, List.append_nil]; exact fun _ hs => hs
  refine salesExact_quiet hw h hrec fun mint q hq => ?_
  rw [position?_of_set hpos] at hq
  split_ifs at hq with hm
  · cases hq
    rw [hm]
    exact hwritten hsales
  · exact hw.kept h hq fun s hs => .inl (hsales s hs)

/-- A sale under a granted claim sells what the claim granted, and ends it. -/
theorem salesExact_sold {w w' : World} {r : SellRequest} {now : Int} {p : Position} {sold : Int}
    (hw : SalesExact w) (hok : sellsUnderClaim w (.sell r now)) (h : w.step (.sell r now) = some w')
    (hp : w.ledger.position? r.mint = some p) (hmatch : r.matches p = true)
    (hmin : sold = min r.tokenAmountRaw p.tokenAmountRaw)
    (hpos : w'.ledger.positions =
      if (r.leaves p sold).tokenAmountRaw ≤ 0
      then (w.ledger.positions.set r.mint (r.leaves p sold)).erase r.mint
      else w.ledger.positions.set r.mint (r.leaves p sold))
    (hrec : Records w w' [r.record p sold] [] [(r, r.record p sold)]) : SalesExact w' := by
  obtain ⟨hdrawn, honce⟩ := grants_step hw h
  obtain ⟨e, hexit, hpend, hle, hdraw, hno, honly⟩ := hw.sale hok hp hmatch
  have hsales : w'.sales = w.sales ++ [(r, r.record p sold)] := hrec.sales
  refine ⟨hdrawn, honce, fun mint q hq => ?_, fun s hs => ?_, ?_, fun s hs => ?_, ?_⟩
  · rw [position?_of_sold hpos] at hq
    split_ifs at hq with hm hz
    · cases hq
      exact .of_none (leaves_pending r p sold).1
    · -- no other position has this exit pending
      refine hw.kept h hq fun s hs => ?_
      rw [hsales] at hs
      rcases List.mem_append.1 hs with hs | hs
      · exact .inl hs
      · right
        rw [List.mem_singleton.1 hs]
        intro he
        exact hm (honly mint q hq (he.symm.trans hexit))
  · rw [hsales] at hs
    rcases List.mem_append.1 hs with hs | hs
    · obtain ⟨x, hx, hsx⟩ := hw.salesDrawn s hs
      exact ⟨x, hrec.ids hx, hsx⟩
    · rw [List.mem_singleton.1 hs]
      exact ⟨e, hrec.ids hdraw, hexit⟩
  · rw [hsales, List.map_append, List.nodup_append]
    refine ⟨hw.salesOnce, List.nodup_singleton _, fun x hx y hy => ?_⟩
    obtain ⟨s, hs, rfl⟩ := List.mem_map.1 hx
    rw [List.mem_singleton.1 hy]
    exact fun he => hno s hs (he.trans hexit)
  · rw [hsales] at hs
    rcases List.mem_append.1 hs with hs | hs
    · exact hw.unclipped s hs
    · rw [List.mem_singleton.1 hs]
      show sold = r.tokenAmountRaw
      omega
  · rw [hsales, hrec.sells, List.map_append, hw.recorded]; rfl

/-- Sales under granted claims stay exact. -/
theorem salesExact_step {w w' : World} {op : Op} (hw : SalesExact w) (hok : sellsUnderClaim w op)
    (h : w.step op = some w') : SalesExact w' := by
  have hlog := (step_log h).1
  have hturn := step_turn h
  generalize (op.run w.ledger).1 = ret at hturn hlog
  cases hturn with
  | idle _ hpos _ hrec =>
    refine salesExact_quiet hw h hrec fun mint q hq => ?_
    rw [position?_of_positions hpos] at hq
    refine hw.kept h hq fun s hs => .inl ?_
    rw [hrec.sales, List.append_nil] at hs; exact hs
  | bought _ _ _ _ hpos _ hrec => exact salesExact_written hw h hrec hpos fun _ => .of_none rfl
  | @claimed _ positionId exitId reason p hp _ hfresh hpos _ hrec =>
    obtain ⟨-, hid⟩ := positionWithId?_eq_some.1 hp
    exact salesExact_written hw h hrec hpos fun hsales =>
      hw.claimed hid rfl rfl hfresh hsales hlog rfl
  | released _ _ hpos _ hrec => exact salesExact_written hw h hrec hpos fun _ => .of_none rfl
  | @touched _ _ p _ _ hp htouch hpos _ hrec =>
    exact salesExact_written hw h hrec hpos fun hsales =>
      (hw.pending _ p hp).transfer htouch.sameClaim (fun g hg => grants_mono h hg)
        fun s hs => .inl (hsales s hs)
  | sold hp hmatch hmin _ hpos _ hrec => exact salesExact_sold hw hok h hp hmatch hmin hpos hrec

theorem salesExact_start : SalesExact World.start := by
  refine ⟨?_, ?_, ?_, ?_, List.nodup_nil, ?_, rfl⟩
  · intro g hg; cases hg
  · intro g hg; cases hg
  · intro mint p hp; cases hp
  · intro s hs; cases hs
  · intro s hs; cases hs

/-! ## No double sale -/

/-- No double sale. In every run in which sales are made under granted claims, of no more than the
claimed amount: every SELL was asked for by one of the sales, under an exit id no other sale used
and for exactly its amount; what is sold from a position never exceeds what was bought; and the
position is gone exactly when all of it is sold. -/
theorem no_double_sale {ops : List Op} {w : World}
    (h : Run World.step sellsUnderClaim World.start ops w) :
    sells w.recorded = w.sales.map Prod.snd ∧
    (w.sales.map fun s => s.1.exitId).Nodup ∧
    (∀ s ∈ w.sales, s.1.exitId.isSome ∧ s.2.tokenAmountRaw = s.1.tokenAmountRaw) ∧
    ∀ b ∈ buys w.recorded, soldAmountOf w.recorded b.positionId ≤ b.tokenAmountRaw ∧
      (NotOpen w b.positionId ↔ soldAmountOf w.recorded b.positionId = b.tokenAmountRaw) := by
  have hw := h.invariant (fun _ _ _ hw hok hs => salesExact_step hw hok hs) salesExact_start
  have hbooks := run_books h
  refine ⟨hw.recorded.symm, hw.salesOnce, fun s hs => ?_, fun b hb => ?_⟩
  · obtain ⟨e, -, he⟩ := hw.salesDrawn s hs
    exact ⟨by rw [he]; rfl, hw.unclipped s hs⟩
  · by_cases hno : NotOpen w b.positionId
    · have := (hbooks.closed b hb hno).amount
      exact ⟨by omega, by simp [hno, this]⟩
    · have hopen := hno
      simp only [NotOpen, not_forall, ne_eq, not_not] at hopen
      obtain ⟨mint, p, hp, hid⟩ := hopen
      obtain ⟨b', hb', -, hbi, -, hba⟩ := (hbooks.opened mint p hp).bought
      have hbb : b = b' := List.inj_on_of_nodup_map hbooks.buyOnce hb hb' (by rw [hbi, hid])
      have hamount := (hbooks.opened mint p hp).amount
      have hpos := (hbooks.opened mint p hp).amountPos
      rw [hid, ← hba, ← hbb] at hamount
      exact ⟨by omega, by simp only [hno, false_iff]; omega⟩

instance (w : World) (op : Op) : Decidable (sellsUnderClaim w op) :=
  inferInstanceAs (Decidable (∀ r ∈ op.sale?, ∃ g ∈ w.log.filterMap grantOf, r.mint = g.mint ∧
    r.positionId = some g.positionId ∧ r.exitId = some g.exitId ∧ r.tokenAmountRaw ≤ g.amount))

theorem no_double_sale_roundTrip : ∃ w : World, soldAmountOf w.recorded ⟨0⟩ = 10 ∧
    (w.sales.map fun s => s.1.exitId).Nodup ∧
    ∀ s ∈ w.sales, s.1.exitId.isSome ∧ s.2.tokenAmountRaw = s.1.tokenAmountRaw := by
  obtain ⟨w, hrun, hw⟩ : ∃ w, Run World.step sellsUnderClaim World.start roundTrip w ∧
      soldAmountOf w.recorded ⟨0⟩ = 10 := Run.exists_of_any (by decide +kernel)
  have h := no_double_sale hrun
  exact ⟨w, hw, h.2.1, h.2.2.1⟩

end Aibot.Risk
