/-
The sales that close a position, in the paper mode: a stop and a manual close sell the whole claimed
amount, the take-profit sells less, and the claimed amount is the position's amount when the sale
comes. So a SELL closed its position exactly when its reason is a terminal one.
-/
import Aibot.Exit.Current
import Aibot.Lib.Newest

namespace Aibot.Risk

/-- The `terminal_reasons` of `get_route_initial_stop_streak`. -/
def ExitReason.isTerminal : ExitReason → Bool
  | .stopLoss15 | .routeBStopLoss10 | .tpBreakEven | .postTpTrailingStop50 | .manualClose
  | .takeProfit100 => true
  | _ => false

/-- A SELL event with a terminal reason. -/
def Event.isTerminal (e : Event) : Bool := e.body.sell?.any fun record => record.reason.isTerminal

/-- A SELL event of the position. -/
def Event.sellsFrom (positionId : Uuid) (e : Event) : Bool :=
  e.body.sell?.any fun record => record.positionId = positionId

/-- The position is open. -/
def Ledger.isOpen (ledger : Ledger) (positionId : Uuid) : Bool :=
  ledger.positions.values.any fun position => position.positionId = positionId

/-- The last SELL of a position that is no longer open. -/
def Event.closes (w : World) (e : Event) : Bool :=
  e.body.sell?.any fun record =>
    ! w.ledger.isOpen record.positionId ∧ newest (Event.sellsFrom record.positionId) w.recorded = some e

/-- The SELL events that closed a position, in the order of closing. -/
def closings (w : World) : List Event := w.recorded.filter (Event.closes w)

theorem isOpen_eq_false {ledger : Ledger} {positionId : Uuid} :
    ledger.isOpen positionId = false ↔
      ∀ mint p, ledger.position? mint = some p → p.positionId ≠ positionId := by
  unfold Ledger.isOpen Ledger.position?
  rw [List.any_eq_false]
  constructor
  · intro h mint p hp hid
    exact h p (Dict.mem_values.2 ⟨mint, hp⟩) (decide_eq_true hid)
  · intro h p hp hid
    obtain ⟨mint, hm⟩ := Dict.mem_values.1 hp
    exact h mint p hm (of_decide_eq_true hid)

end Aibot.Risk

namespace Aibot.Exit

open Aibot.Risk

/-! ## Plans -/

/-- The exits of the paper mode: the whole amount, or the take-profit's share. -/
def Plan.isPaper (plan : Plan) : Prop := sellsAll plan.reason = true ∨ plan.reason = .takeProfit30Sell80

theorem exitPlan_isPaper {snapshot : Snapshot} {value : Int} {plan : Plan}
    (h : exitPlan? snapshot value = some plan) : plan.isPaper := by
  unfold exitPlan? at h
  simp only at h
  split_ifs at h <;> cases h
  · unfold Plan.isPaper stopReason
    split_ifs <;> exact .inl rfl
  · exact .inr rfl

/-- A plan of the paper mode sells the whole amount exactly when its reason is terminal. -/
theorem Plan.isPaper.amount {plan : Plan} (h : plan.isPaper) {amount : Int} (hpos : 0 < amount) :
    (amount - exitAmount plan.reason amount ≤ 0 ↔ plan.reason.isTerminal = true) := by
  unfold exitAmount
  rcases h with hall | hprofit
  · have hterminal : plan.reason.isTerminal = true := by
      cases hr : plan.reason <;> rw [hr] at hall <;> first | rfl | cases hall
    rw [if_pos hall, hterminal]
    simp
  · rw [hprofit]
    unfold takeProfitSellPercent
    rw [if_neg (by decide), Int.fdiv_eq_ediv_of_nonneg _ (by decide)]
    constructor
    · intro hle; omega
    · intro hterminal; cases hterminal

/-! ## The invariant -/

/-- The sales of an open position are partial, and of those of a closed one exactly the last is not. -/
structure ClosesByReason (w : World) : Prop where
  opened : ∀ mint p, w.ledger.position? mint = some p →
    ∀ x ∈ sellsOf w.recorded p.positionId, x.reason.isTerminal = false
  closed : ∀ id, NotOpen w id → sellsOf w.recorded id = [] ∨
    ∃ before last, sellsOf w.recorded id = before ++ [last] ∧ last.reason.isTerminal = true ∧
      ∀ x ∈ before, x.reason.isTerminal = false

/-- What the flows of the paper mode keep. -/
structure Paper (s : Exits) : Prop where
  plans : ∀ f plan, (s.flows f).plan? = some plan → plan.isPaper
  asks : ∀ f plan exitId amount, (s.flows f).asks = some (plan, exitId, amount) →
    ∃ g ∈ s.world.log.filterMap grantOf, g.exitId = exitId ∧ amount = exitAmount plan.reason g.amount
  closes : ClosesByReason s.world

/-- A sale of a paper flow sells all of its position exactly when its reason is terminal. -/
def ClosingSale (w : World) (op : Op) : Prop :=
  ∀ r ∈ op.sale?, ∀ p, w.ledger.position? r.mint = some p → r.matches p = true →
    (p.tokenAmountRaw - min r.tokenAmountRaw p.tokenAmountRaw ≤ 0 ↔ r.reason.isTerminal = true)

/-- A call without a sale keeps the closing sales, when each position it leaves is one that was there
or has no sales, and each position that was there is still. -/
theorem closes_quiet {w w' : World} {bought : List BuyRecord} (hw : ClosesByReason w)
    (hrec : Records w w' [] bought [])
    (hopened : ∀ mint q, w'.ledger.position? mint = some q → sellsOf w.recorded q.positionId = [] ∨
      ∃ mint' p, w.ledger.position? mint' = some p ∧ q.positionId = p.positionId)
    (hclosed : ∀ id, NotOpen w' id → NotOpen w id) : ClosesByReason w' := by
  refine ⟨fun mint q hq => ?_, fun id hno => ?_⟩
  · rw [hrec.quiet]
    rcases hopened mint q hq with hnone | ⟨mint', p, hp, hid⟩
    · rw [hnone]
      intro x hx; cases hx
    · rw [hid]
      exact hw.opened mint' p hp
  · rw [hrec.quiet]
    exact hw.closed id (hclosed id hno)

/-- The sale that empties a position is its last one, and the only one with a terminal reason. -/
theorem closes_sold {w w' : World} (hbooks : Books w) (hw : ClosesByReason w) {r : SellRequest}
    {p p' : Position} {sold : Int} (hp : w.ledger.position? r.mint = some p)
    (hclosing : p'.tokenAmountRaw ≤ 0 ↔ r.reason.isTerminal = true)
    (hid : p'.positionId = p.positionId)
    (hpos : w'.ledger.positions =
      if p'.tokenAmountRaw ≤ 0 then (w.ledger.positions.set r.mint p').erase r.mint
      else w.ledger.positions.set r.mint p')
    (hrec : Records w w' [r.record p sold] [] [(r, r.record p sold)]) : ClosesByReason w' := by
  have hget := position?_of_sold hpos
  have hrecord : (r.record p sold).positionId = p.positionId := rfl
  -- the sale enters the sales of this position only
  have hself : sellsOf w'.recorded p.positionId = sellsOf w.recorded p.positionId ++ [r.record p sold] := by
    rw [hrec.sale, if_pos hrecord]
  have hother : ∀ id, id ≠ p.positionId → sellsOf w'.recorded id = sellsOf w.recorded id := by
    intro id hne
    rw [hrec.sale, if_neg fun he => hne (he.symm.trans hrecord), List.append_nil]
  refine ⟨fun m q hq => ?_, fun id hno => ?_⟩
  · rw [hget] at hq
    split_ifs at hq with hmint hz
    · cases hq
      rw [hid, hself]
      intro x hx
      rcases List.mem_append.1 hx with hx | hx
      · exact hw.opened r.mint p hp x hx
      · rw [List.mem_singleton.1 hx]
        exact Bool.eq_false_iff.2 fun hterminal => hz (hclosing.2 hterminal)
    · have hne : q.positionId ≠ p.positionId := fun he => hmint (hbooks.idInjective hq hp he)
      rw [hother _ hne]
      exact hw.opened m q hq
  · by_cases hthis : id = p.positionId
    · subst hthis
      have hz : p'.tokenAmountRaw ≤ 0 := by
        by_contra hz
        exact hno r.mint p' (by rw [hget, if_pos rfl, if_neg hz]) hid
      exact .inr ⟨_, _, hself, hclosing.1 hz, hw.opened r.mint p hp⟩
    · rw [hother id hthis]
      refine hw.closed id (hno.back (fun m hm => by rw [hget, if_neg hm]) fun q hq => ?_)
      rw [hp] at hq; cases hq
      exact fun he => hthis he.symm

theorem closesByReason_step {w w' : World} {op : Op} (hbooks : Books w) (hw : ClosesByReason w)
    (hop : ClosingSale w op) (h : w.step op = some w') : ClosesByReason w' := by
  cases step_entry h with
  | idle hpos _ hrec =>
    have hget := position?_of_positions hpos
    refine closes_quiet hw hrec (fun m q hq => .inr ⟨m, q, (hget m).symm.trans hq, rfl⟩) ?_
    exact fun id hno m q hq => hno m q ((hget m).trans hq)
  | @touched mint p p' hp hs hpos _ hrec =>
    have hget := position?_of_set hpos
    refine closes_quiet hw hrec (fun m q hq => .inr ?_) fun id hno => ?_
    · rw [hget] at hq
      split_ifs at hq with hm
      · cases hq
        exact ⟨mint, p, hp, hs.positionId⟩
      · exact ⟨m, q, hq, rfl⟩
    · refine hno.back (fun m hm => by rw [hget, if_neg hm]) fun q hq => ?_
      rw [hp] at hq; cases hq
      rw [← hs.positionId]
      exact hno mint p' (by rw [hget, if_pos rfl])
  | @bought r route id round at_ hfree hfresh _ _ _ hpos _ _ hrec =>
    have hget := position?_of_set hpos
    refine closes_quiet hw hrec (fun m q hq => ?_) fun id' hno => ?_
    · rw [hget] at hq
      split_ifs at hq with hm
      · cases hq
        exact .inl (hbooks.sellsOf_fresh hfresh)
      · exact .inr ⟨m, q, hq, rfl⟩
    · refine hno.back (fun m hm => by rw [hget, if_neg hm]) fun q hq => ?_
      rw [hfree] at hq; cases hq
  | @sold r p p' sold hsale hp hm hmin _ hs hpos _ hrec =>
    have hamount : p'.tokenAmountRaw = p.tokenAmountRaw - sold := hs.tokenAmountRaw
    have hclosing := hop r hsale p hp hm
    rw [← hmin, ← hamount] at hclosing
    exact closes_sold hbooks hw hp hclosing hs.positionId hpos hrec

theorem closesByReason_start : ClosesByReason World.start := by
  refine ⟨?_, fun id _ => .inl rfl⟩
  intro mint p hp; cases hp

/-! ## Every step keeps it -/

theorem paper_plans_step {s s' : Exits} {a : Act} (hs : Paper s) (h : s.step a = some s') :
    ∀ f plan, (s'.flows f).plan? = some plan → plan.isPaper := by
  intro g plan hg
  cases step_shape h with
  | @moved _ f flow _ hmove =>
    by_cases hgf : g = f
    · subst hgf
      rw [move_flows_self] at hg
      have old := hs.plans g
      generalize s.flows g = cur at hmove old
      cases hmove with
      | closes => cases hg; exact .inl rfl
      | quotes => exact old plan hg
      | evaluates | skips | detects | detectionFails | quoteFails | saleFails | releaseFails
      | writeFails | abandoned => cases hg
    · rw [move_flows_of_ne s flow hgf] at hg
      exact hs.plans g plan hg
  | @wrote f _ _ op world _ _ =>
    by_cases hgf : g = f
    · subst hgf
      rw [wrote_flows_self] at hg
      rcases resume_plan hg with hplan | ⟨snapshot, value, hplan⟩
      · exact hs.plans g plan hplan
      · exact exitPlan_isPaper hplan
    · rw [wrote_flows_of_ne s op world hgf] at hg
      exact hs.plans g plan hg
  | other => exact hs.plans g plan hg

theorem paper_asks_step {s s' : Exits} {a : Act} (hs : Paper s) (h : s.step a = some s') :
    ∀ f plan exitId amount, (s'.flows f).asks = some (plan, exitId, amount) →
      ∃ g ∈ s'.world.log.filterMap grantOf, g.exitId = exitId ∧ amount = exitAmount plan.reason g.amount := by
  intro g plan exitId amount hx
  -- what was asked for before is asked for still
  have kept {f : Nat} {w : World} {op : Op} (hw : s.world.step op = some w)
      (hx : (s.flows f).asks = some (plan, exitId, amount)) : ∃ g ∈ w.log.filterMap grantOf,
        g.exitId = exitId ∧ amount = exitAmount plan.reason g.amount := by
    obtain ⟨g, hg, hrest⟩ := hs.asks f plan exitId amount hx
    exact ⟨g, grants_mono hw hg, hrest⟩
  cases step_shape h with
  | @moved _ f flow _ hmove =>
    by_cases hgf : g = f
    · subst hgf
      rw [move_flows_self] at hx
      exact hs.asks g plan exitId amount (hmove.asks hx)
    · rw [move_flows_of_ne s flow hgf] at hx
      exact hs.asks g plan exitId amount hx
  | @wrote f freshId now op world hop hw =>
    by_cases hgf : g = f
    · subst hgf
      rw [wrote_flows_self] at hx
      obtain ⟨current, hflow, hgrant, -, rfl⟩ := resume_asks hop hx
      rw [hflow] at hop
      cases hop
      exact ⟨_, grant_mem hw (grantOf_claim hgrant), rfl, rfl⟩
    · rw [wrote_flows_of_ne s op world hgf] at hx
      exact kept hw hx
  | other _ hw => exact kept hw hx

/-- The sale of a flow is of the amount its exit was granted on, which is the amount still there. -/
theorem request_closing {s : Exits} (hs : Paper s) (hbooks : Books s.world) (hsales : SalesExact s.world)
    {f : Nat} {freshId : Uuid} {now : Int} {op : Op} (h : (s.flows f).request freshId now = some op) :
    ClosingSale s.world op := by
  intro r hr p hp hmatch
  cases hf : s.flows f with
  | idle | evaluating | quoting | finished => rw [hf] at h; cases h
  | marking | claiming | releasing | failing => rw [hf] at h; cases h; cases hr
  | selling plan exitId amount proceeds =>
    have hasks : (s.flows f).asks = some (plan, exitId, amount) := by rw [hf]; rfl
    have hplan := hs.plans f plan (by rw [hf]; rfl)
    rw [hf] at h; cases h
    cases hr
    obtain ⟨g, hg, hge, hamount⟩ := hs.asks f plan exitId amount hasks
    have hpend := (matches_iff.1 hmatch).2 exitId rfl
    obtain ⟨hgp, -⟩ := hsales.pending _ p hp exitId hpend
    have hsame := hsales.once g hg _ hgp hge
    have hga : g.amount = p.tokenAmountRaw := by rw [hsame]
    have hpos := (hbooks.opened _ p hp).amountPos
    have hle : exitAmount plan.reason p.tokenAmountRaw ≤ p.tokenAmountRaw := exitAmount_le _ (by omega)
    rw [hga] at hamount
    rw [hamount, min_eq_left hle]
    exact hplan.amount hpos

theorem offExit_closing {w : World} {op : Op} (h : op.offExit = true) : ClosingSale w op := by
  intro r hr
  cases op <;> cases hr
  cases h

theorem paper_step {s s' : Exits} {a : Act} (hs : Paper s) (hbooks : Books s.world)
    (hsales : SalesExact s.world) (h : s.step a = some s') : Paper s' := by
  refine ⟨paper_plans_step hs h, paper_asks_step hs h, ?_⟩
  cases step_shape h with
  | moved => exact hs.closes
  | wrote hop hw => exact closesByReason_step hbooks hs.closes (request_closing hs hbooks hsales hop) hw
  | other hop hw => exact closesByReason_step hbooks hs.closes (offExit_closing hop) hw

theorem paper_start : Paper Exits.start := by
  refine ⟨?_, ?_, closesByReason_start⟩
  · intro f plan hf; cases hf
  · intro f plan exitId amount hf; cases hf

/-- In every interleaving of the exit flows, the sales close by their reason. -/
theorem run_closes {ok : Exits → Act → Prop} {acts : List Act} {s : Exits}
    (h : Run Exits.step ok Exits.start acts s) : ClosesByReason s.world := by
  have hstep : ∀ s a s', (Paper s ∧ Granted s ∧ Books s.world ∧ SalesExact s.world) → ok s a →
      s.step a = some s' → Paper s' ∧ Granted s' ∧ Books s'.world ∧ SalesExact s'.world := by
    rintro s a s' ⟨hs, hgranted, hbooks, hsales⟩ - h
    refine ⟨paper_step hs hbooks hsales h, granted_step hgranted hbooks h, ?_⟩
    rcases step_world hgranted h with he | ⟨op, hop, hw⟩
    · rw [he]; exact ⟨hbooks, hsales⟩
    · exact ⟨books_step hbooks hw, salesExact_step hsales hop hw⟩
  have hgranted : Granted Exits.start := by intro f plan exitId amount hx; cases hx
  exact (h.invariant hstep ⟨paper_start, hgranted, books_start, salesExact_start⟩).1.closes

end Aibot.Exit
