/-
The exit strategy of the paper mode, as an automaton over the quotes of one position, and that the
evaluations of one manager follow it: each evaluation makes up to four commits, decides on what it
read before the first of them, and yet records the exits the automaton records.
-/
import Aibot.Exit.Alone

namespace Aibot.Exit

open Aibot.Risk Aibot.Store

/-! ## The strategy -/

/-- An exit: what was sold, for how much, and why. -/
structure Sale where
  reason : ExitReason
  tokenAmountRaw : Int
  proceedsLamports : Int
  deriving DecidableEq, Repr

/-- One evaluation as the strategy sees it: its quote failed, or gave the position's value, and then
`exitQuote` is what the tokens of a take-profit are quoted at, if that quote arrives. -/
inductive Reading
  | failed
  | valued (value : Int) (exitQuote : Option Int)
  deriving DecidableEq, Repr

/-- What the strategy knows of a position before its first take-profit. -/
structure Holding where
  routeType : RouteType
  tokenAmountRaw : Int
  costLamports : Int

/-- Where a position is: before its take-profit; after it, with the tokens that are left and the values
of the evaluations since, newest first; or sold. -/
inductive Stage
  | before (holding : Holding)
  | after (tokenAmountRaw : Int) (marks : List Int)
  | closed

/-- The part of the cost at which a position of this route is given up. -/
def stopPart : RouteType → ℚ
  | .A => 85 / 100
  | .B => 90 / 100

def initialStop : RouteType → ExitReason
  | .A => .stopLoss15
  | .B => .routeBStopLoss10

/-- The tokens a take-profit sells: four fifths, rounded down. -/
def sellable (tokenAmountRaw : Int) : Int := tokenAmountRaw * 80 / 100

/-- One evaluation: where it leads, and the exit it records. -/
def Stage.step : Stage → Reading → Stage × Option Sale
  | stage, .failed => (stage, none)
  | .before holding, .valued value exitQuote =>
    if (value : ℚ) ≤ stopPart holding.routeType * holding.costLamports then
      (.closed, some ⟨initialStop holding.routeType, holding.tokenAmountRaw, value⟩)
    else if (130 / 100 : ℚ) * holding.costLamports ≤ value ∧ 1 ≤ sellable holding.tokenAmountRaw then
      match exitQuote with
      | none => (.before holding, none)
      | some proceeds =>
        (.after (holding.tokenAmountRaw - sellable holding.tokenAmountRaw) [],
          some ⟨.takeProfit30Sell80, sellable holding.tokenAmountRaw, proceeds⟩)
    else (.before holding, none)
  | .after tokenAmountRaw marks, .valued value _ =>
    if ∃ peak ∈ marks.max?, (value : ℚ) ≤ peak / 2 then
      (.closed, some ⟨.postTpTrailingStop50, tokenAmountRaw, value⟩)
    else (.after tokenAmountRaw (value :: marks), none)
  | .closed, .valued .. => (.closed, none)

/-- The exits of a position, each with the number of the evaluation that records it. -/
def Stage.exits : Stage → Nat → List Reading → List (Nat × Sale)
  | _, _, [] => []
  | stage, n, reading :: readings =>
    ((stage.step reading).2.map (n, ·)).toList ++ (stage.step reading).1.exits (n + 1) readings

/-- A position that was sold has no more exits. -/
theorem exits_closed : ∀ (readings : List Reading) (n : Nat), Stage.closed.exits n readings = []
  | [], _ => rfl
  | .failed :: readings, n => exits_closed readings (n + 1)
  | .valued .. :: readings, n => exits_closed readings (n + 1)

/-- After the take-profit there is at most one exit, the trailing stop's sale of what is left. -/
theorem exits_after (tokenAmountRaw : Int) : ∀ (readings : List Reading) (marks : List Int) (n : Nat),
    (Stage.after tokenAmountRaw marks).exits n readings = [] ∨
    ∃ k value, (Stage.after tokenAmountRaw marks).exits n readings =
      [(k, ⟨.postTpTrailingStop50, tokenAmountRaw, value⟩)]
  | [], marks, n => .inl rfl
  | .failed :: readings, marks, n => exits_after tokenAmountRaw readings marks (n + 1)
  | .valued value exitQuote :: readings, marks, n => by
    simp only [Stage.exits, Stage.step]
    split_ifs
    · right
      refine ⟨n, value, ?_⟩
      simp [exits_closed]
    · exact exits_after tokenAmountRaw readings (value :: marks) (n + 1)

/-! ## What the ledger shows of a position -/

/-- The open position of a mint, if any, and every SELL record of the ledger. -/
structure Shows (ledger : Ledger) (mint : Mint) (position : Option Position) (records : List SellRecord) :
    Prop where
  position : ledger.position? mint = position
  records : sells ledger.events = records

theorem Shows.withId {ledger : Ledger} {mint : Mint} {p : Position} {records : List SellRecord}
    (h : Shows ledger mint (some p) records) : ledger.positionWithId? mint p.positionId = some p :=
  positionWithId?_eq_some.2 ⟨h.position, rfl⟩

/-- A call that puts another position in the place of the one shown. -/
theorem Shows.set {ledger : Ledger} {mint : Mint} {p p' : Position} {records : List SellRecord} {v : Int}
    (h : Shows ledger mint (some p) records) :
    Shows { ledger.setPosition mint p' with version := v } mint (some p') records := by
  constructor
  · show (ledger.setPosition mint p').position? mint = some p'
    simp
  · exact h.records

theorem shows_mark {ledger : Ledger} {mint : Mint} {p : Position} {records : List SellRecord} {value now : Int}
    (h : Shows ledger mint (some p) records) (hv : 0 < value) :
    Shows ((Op.mark mint p.positionId value now).run ledger).2 mint (some (p.marked value now)) records := by
  rw [Op.run_eq _ rfl]
  simp only [Op.mutate, recordPositionMark, h.withId]
  rw [if_neg (by omega)]
  exact h.set

theorem shows_quoteFailure {ledger : Ledger} {mint : Mint} {p : Position} {records : List SellRecord}
    {error : String} {now : Int} (h : Shows ledger mint (some p) records) :
    Shows ((Op.quoteFailure mint p.positionId error now).run ledger).2 mint (some (p.quoteFailed error now))
      records := by
  rw [Op.run_eq _ rfl]
  simp only [Op.mutate, recordQuoteFailure, h.withId]
  exact h.set

theorem shows_claim {ledger : Ledger} {mint : Mint} {p : Position} {records : List SellRecord}
    {reason : ExitReason} {exitId : Uuid} (h : Shows ledger mint (some p) records)
    (hfree : p.riskState ≠ .exitPending) :
    ((Op.claim mint p.positionId reason exitId).run ledger).1 = .claimed (some (exitId, p.tokenAmountRaw)) ∧
    Shows ((Op.claim mint p.positionId reason exitId).run ledger).2 mint (some (p.claimed exitId reason))
      records := by
  rw [Op.run_eq _ rfl]
  simp only [Op.mutate, claimPositionExit, h.withId]
  rw [if_neg hfree]
  exact ⟨rfl, h.set⟩

theorem shows_release {ledger : Ledger} {mint : Mint} {p : Position} {records : List SellRecord}
    {exitId : Uuid} {degraded : Bool} (h : Shows ledger mint (some p) records)
    (hpending : p.pendingExitId = some exitId) :
    Shows ((Op.release mint p.positionId exitId degraded).run ledger).2 mint (some (p.released degraded))
      records := by
  rw [Op.run_eq _ rfl]
  simp only [Op.mutate, releaseExitClaim, h.withId]
  rw [if_pos hpending]
  exact h.set

/-- A sale of the position shown, under its claim and of no more than it has. -/
theorem shows_sell {ledger : Ledger} {p : Position} {records : List SellRecord} {r : SellRequest} {now : Int}
    (h : Shows ledger r.mint (some p) records) (hmatch : r.matches p = true) (hpos : 0 < r.tokenAmountRaw)
    (hle : r.tokenAmountRaw ≤ p.tokenAmountRaw) :
    Shows ((Op.sell r now).run ledger).2 r.mint
      (if (r.leaves p r.tokenAmountRaw).tokenAmountRaw ≤ 0 then none
        else some (r.leaves p r.tokenAmountRaw))
      (records ++ [r.record p r.tokenAmountRaw]) := by
  have hsold : min r.tokenAmountRaw p.tokenAmountRaw = r.tokenAmountRaw := min_eq_left hle
  have hrun : ((Op.sell r now).run ledger).2 =
      { r.settle p r.tokenAmountRaw now ledger with version := ledger.version + 1 } := by
    rw [Op.run_eq _ rfl]
    simp only [Op.mutate, recordPaperSell, h.position, Option.filter_some, hmatch, if_true, hsold]
    rw [if_neg (by omega)]
  rw [hrun]
  constructor
  · show (r.settle p r.tokenAmountRaw now ledger).positions.get? r.mint = _
    rw [settle_positions]
    split_ifs
    · simp
    · simp
  · show sells (r.settle p r.tokenAmountRaw now ledger).events = _
    rw [(settle_frame r p r.tokenAmountRaw now ledger).2.2, sells_append, h.records]
    rfl

/-! ## One evaluation -/

/-- What an evaluation is to the strategy. -/
def Answers.reading (a : Answers) : Reading :=
  match a.detection with
  | .error _ => .failed
  | .ok quote => .valued quote (a.exit.toOption.map Subtype.val)

/-- A position that is open and free, with tokens and a cost. -/
structure Held (mint : Mint) (positionId : Uuid) (p : Position) : Prop where
  mint : p.mint = mint
  positionId : p.positionId = positionId
  amount : 0 < p.tokenAmountRaw
  cost : 0 < p.remainingCostLamports
  free : p.riskState ≠ .exitPending

/-- What the strategy knows of a position. -/
def holdingOf (p : Position) : Holding := ⟨p.routeType, p.tokenAmountRaw, p.remainingCostLamports⟩

/-- The ledger's position stands where the strategy is. -/
inductive Stands (mint : Mint) (positionId : Uuid) : Stage → Option Position → Prop
  | before {p : Position} {holding : Holding} : Held mint positionId p → p.takeProfitDone = false →
      holding = holdingOf p → Stands mint positionId (.before holding) (some p)
  | after {p : Position} {amount : Int} {marks : List Int} : Held mint positionId p →
      p.takeProfitDone = true → p.tokenAmountRaw = amount →
      p.postTpPeakExitValueLamports = marks.max?.getD 0 → (∀ mark ∈ marks, 0 < mark) →
      Stands mint positionId (.after amount marks) (some p)
  | closed : Stands mint positionId .closed none

/-- A failed detection quote is recorded, and that is all. -/
theorem rest_undetected {a : Answers} {snapshot : Snapshot} {ledger : Ledger} {error : String}
    (hdetect : a.detection = .error error) : Flow.rest a (.evaluating snapshot) ledger =
      ((Op.quoteFailure snapshot.mint snapshot.position.positionId error a.failedAt).run ledger).2 := by
  have hnext : (Flow.evaluating snapshot).next a ledger =
      some (.failing snapshot.mint snapshot.position.positionId error, ledger) := by
    simp only [Flow.next, Flow.request, Flow.answered, hdetect]
    rfl
  rw [rest_next hnext]
  exact (rest_next rfl).trans (rest_finished rfl)

/-- A value is recorded as a mark before the flow acts on it. -/
theorem rest_detected {a : Answers} {snapshot : Snapshot} {ledger : Ledger} {quote : Quote}
    (hdetect : a.detection = .ok quote) : Flow.rest a (.evaluating snapshot) ledger =
      Flow.rest a (((exitPlan? snapshot quote).map Flow.claiming).getD .finished)
        ((Op.mark snapshot.mint snapshot.position.positionId quote a.markedAt).run ledger).2 := by
  have hnext : (Flow.evaluating snapshot).next a ledger = some (.marking snapshot quote, ledger) := by
    simp only [Flow.next, Flow.request, Flow.answered, hdetect]
    rfl
  rw [rest_next hnext]
  exact rest_next rfl

/-- A plan is carried out on the position as the claim finds it. -/
theorem rest_claiming {a : Answers} {plan : Plan} {ledger : Ledger} {p : Position} {records : List SellRecord}
    (h : Shows ledger plan.snapshot.mint (some p) records)
    (hid : plan.snapshot.position.positionId = p.positionId) (hfree : p.riskState ≠ .exitPending) :
    ∃ ledger', Flow.rest a (.claiming plan) ledger = (plan.claimed a.exitId p.tokenAmountRaw).rest a ledger' ∧
      Shows ledger' plan.snapshot.mint (some (p.claimed a.exitId plan.reason)) records := by
  obtain ⟨hret, hshows⟩ := @shows_claim _ _ _ _ plan.reason a.exitId h hfree
  refine ⟨_, ?_, hshows⟩
  have hnext : (Flow.claiming plan).next a ledger = some (plan.claimed a.exitId p.tokenAmountRaw,
      ((Op.claim plan.snapshot.mint p.positionId plan.reason a.exitId).run ledger).2) := by
    simp only [Flow.next, Flow.request, hid, Flow.resume, hret]
    rfl
  exact rest_next hnext

/-- The request of a flow's sale. -/
def Plan.sale (plan : Plan) (exitId : Uuid) (amount proceeds : Int) : SellRequest :=
  ⟨plan.snapshot.mint, amount, proceeds, plan.reason, some plan.snapshot.position.positionId, some exitId⟩

/-- A claimed position is sold from. -/
theorem rest_selling {a : Answers} {plan : Plan} {ledger : Ledger} {p : Position} {records : List SellRecord}
    {amount proceeds : Int} (h : Shows ledger plan.snapshot.mint (some p) records)
    (hid : plan.snapshot.position.positionId = p.positionId) (hclaim : p.pendingExitId = some a.exitId)
    (hreason : plan.reason ≠ .manualClose) (hpos : 0 < amount) (hle : amount ≤ p.tokenAmountRaw) :
    Shows (Flow.rest a (.selling plan a.exitId amount proceeds) ledger) plan.snapshot.mint
      (if ((plan.sale a.exitId amount proceeds).leaves p amount).tokenAmountRaw ≤ 0 then none
        else some ((plan.sale a.exitId amount proceeds).leaves p amount))
      (records ++ [(plan.sale a.exitId amount proceeds).record p amount]) := by
  have hnext : (Flow.selling plan a.exitId amount proceeds).next a ledger =
      some (.finished, ((Op.sell (plan.sale a.exitId amount proceeds) a.soldAt).run ledger).2) := by
    simp only [Flow.next, Flow.request, Flow.resume]
    rw [if_neg (fun hc => hreason hc.2)]
    rfl
  rw [rest_next hnext, rest_finished rfl]
  refine shows_sell (r := plan.sale a.exitId amount proceeds) h ?_ hpos hle
  simp [SellRequest.matches, Plan.sale, hid, hclaim]

/-- A claim that is not sold under is given back, and a failed quote then recorded. -/
theorem rest_releasing {a : Answers} {plan : Plan} {ledger : Ledger} {p : Position} {records : List SellRecord}
    {failure : Option String} (h : Shows ledger plan.snapshot.mint (some p) records)
    (hid : plan.snapshot.position.positionId = p.positionId) (hclaim : p.pendingExitId = some a.exitId) :
    Shows (Flow.rest a (.releasing plan a.exitId failure) ledger) plan.snapshot.mint
      (some (match failure with
        | none => p.released false
        | some error => (p.released true).quoteFailed error a.failedAt))
      records := by
  have hreleased := @shows_release _ _ _ _ _ failure.isSome h hclaim
  cases failure with
  | none =>
    have hnext : (Flow.releasing plan a.exitId none).next a ledger = some (.finished,
        ((Op.release plan.snapshot.mint p.positionId a.exitId false).run ledger).2) := by
      simp only [Flow.next, Flow.request, hid]
      rfl
    rw [rest_next hnext, rest_finished rfl]
    exact hreleased
  | some error =>
    have hnext : (Flow.releasing plan a.exitId (some error)).next a ledger =
        some (.failing plan.snapshot.mint p.positionId error,
          ((Op.release plan.snapshot.mint p.positionId a.exitId true).run ledger).2) := by
      simp only [Flow.next, Flow.request, hid, Flow.resume]
      rfl
    rw [rest_next hnext, rest_next rfl, rest_finished rfl]
    exact shows_quoteFailure (p := p.released true) hreleased

/-! ## The strategy is followed -/

/-- A SELL record as the strategy sees it. -/
def saleOf (record : SellRecord) : Sale := ⟨record.reason, record.tokenAmountRaw, record.proceedsLamports⟩

/-- The records say that these sales were made from this position. -/
structure Tells (mint : Mint) (positionId : Uuid) (sales : List Sale) (records : List SellRecord) : Prop where
  sales : records.map saleOf = sales
  mint : ∀ record ∈ records, record.mint = mint
  positionId : ∀ record ∈ records, record.positionId = positionId

theorem tells_nothing (mint : Mint) (positionId : Uuid) : Tells mint positionId [] [] := by
  constructor
  · rfl
  · intro record hr; cases hr
  · intro record hr; cases hr

theorem tells_record {plan : Plan} {p : Position} {mint : Mint} {positionId exitId : Uuid} {amount proceeds : Int}
    (hmint : plan.snapshot.mint = mint) (hid : p.positionId = positionId) :
    Tells mint positionId [⟨plan.reason, amount, proceeds⟩] [(plan.sale exitId amount proceeds).record p amount] := by
  constructor
  · rfl
  · intro record hr
    rw [List.mem_singleton.1 hr]
    exact hmint
  · intro record hr
    rw [List.mem_singleton.1 hr]
    exact hid

/-- A stop sells everything by the detection quote. -/
theorem stop_sells {a : Answers} {plan : Plan} {ledger : Ledger} {p : Position} {records : List SellRecord}
    {mint : Mint} {positionId : Uuid} {value : Int} (h : Shows ledger mint (some p) records)
    (hp : Held mint positionId p) (hmint : plan.snapshot.mint = mint)
    (hid : plan.snapshot.position.positionId = positionId) (hall : sellsAll plan.reason = true)
    (hreason : plan.reason ≠ .manualClose) (hdetected : plan.detected = some (value, p.tokenAmountRaw)) :
    ∃ new, Shows (Flow.rest a (.claiming plan) ledger) mint none (records ++ new) ∧
      Tells mint positionId [⟨plan.reason, p.tokenAmountRaw, value⟩] new := by
  subst hmint
  have hsame : plan.snapshot.position.positionId = p.positionId := hid.trans hp.positionId.symm
  obtain ⟨ledger', hrest, hshows⟩ := @rest_claiming a _ _ _ _ h hsame hp.free
  have hpos := hp.amount
  have hflow : plan.claimed a.exitId p.tokenAmountRaw = .selling plan a.exitId p.tokenAmountRaw value := by
    simp only [Plan.claimed, exitAmount, hall, if_true, hdetected]
    rw [if_neg (by omega), if_neg (by simp)]
  rw [hrest, hflow]
  have hsold := @rest_selling a plan ledger' _ _ p.tokenAmountRaw value hshows hsame rfl hreason hpos le_rfl
  have hempty : ((plan.sale a.exitId p.tokenAmountRaw value).leaves (p.claimed a.exitId plan.reason)
      p.tokenAmountRaw).tokenAmountRaw ≤ 0 := by
    unfold SellRequest.leaves Position.markTakeProfit
    split_ifs
    all_goals simp [Position.sold, Position.claimed]
  rw [if_pos hempty] at hsold
  exact ⟨_, hsold, tells_record rfl hp.positionId⟩

theorem exitAmount_takeProfit (amount : Int) : exitAmount .takeProfit30Sell80 amount = sellable amount := by
  unfold exitAmount sellable takeProfitSellPercent
  rw [if_neg (by simp [sellsAll]), Int.fdiv_eq_ediv_of_nonneg _ (by omega)]

/-- A take-profit sells less than everything. -/
theorem sellable_lt {amount : Int} (h : 0 < amount) : sellable amount < amount := by
  unfold sellable
  omega

/-- A position that is open and before its take-profit, as far as the strategy is concerned. -/
structure Untouched (mint : Mint) (positionId : Uuid) (holding : Holding) (p : Position) : Prop where
  held : Held mint positionId p
  open_ : p.takeProfitDone = false
  holding : holding = holdingOf p

theorem Untouched.stands {mint : Mint} {positionId : Uuid} {holding : Holding} {p : Position}
    (h : Untouched mint positionId holding p) : Stands mint positionId (.before holding) (some p) :=
  .before h.held h.open_ h.holding

/-- A take-profit of no token, or whose quote fails, gives its claim back. -/
theorem profit_missed {a : Answers} {snapshot : Snapshot} {ledger : Ledger} {p : Position}
    {records : List SellRecord} {mint : Mint} {positionId : Uuid} {holding : Holding}
    (h : Shows ledger mint (some p) records) (hp : Untouched mint positionId holding p)
    (hmint : snapshot.mint = mint) (hid : snapshot.position.positionId = positionId)
    (hmiss : ¬ 1 ≤ sellable p.tokenAmountRaw ∨ a.exit.toOption = none) :
    ∃ p', Shows (Flow.rest a (.claiming ⟨snapshot, .takeProfit30Sell80, none⟩) ledger) mint (some p') records ∧
      Untouched mint positionId holding p' := by
  subst hmint
  have hsame : snapshot.position.positionId = p.positionId := hid.trans hp.held.positionId.symm
  obtain ⟨ledger', hrest, hshows⟩ :=
    @rest_claiming a ⟨snapshot, .takeProfit30Sell80, none⟩ _ _ _ h hsame hp.held.free
  rw [hrest]
  unfold Plan.claimed
  simp only [exitAmount_takeProfit]
  split_ifs with hnone
  · refine ⟨_, @rest_releasing a _ _ _ _ none hshows hsame rfl, ⟨?_, hp.open_, hp.holding⟩⟩
    exact ⟨hp.held.mint, hp.held.positionId, hp.held.amount, hp.held.cost, by simp [Position.released]⟩
  · cases hexit : a.exit with
    | ok quote =>
      rw [hexit] at hmiss
      rcases hmiss with hmiss | hmiss
      · omega
      · cases hmiss
    | error error =>
      have hnext : (Flow.quoting ⟨snapshot, .takeProfit30Sell80, none⟩ a.exitId
          (sellable p.tokenAmountRaw)).next a ledger' =
          some (.releasing ⟨snapshot, .takeProfit30Sell80, none⟩ a.exitId (some error), ledger') := by
        simp only [Flow.next, Flow.request, Flow.answered, hexit]
        rfl
      rw [rest_next hnext]
      refine ⟨_, @rest_releasing a _ _ _ _ (some error) hshows hsame rfl, ⟨?_, hp.open_, hp.holding⟩⟩
      refine ⟨hp.held.mint, hp.held.positionId, hp.held.amount, hp.held.cost, ?_⟩
      -- a failed quote leaves the state degraded, or without a route
      unfold Position.quoteFailed Position.released
      simp only
      split_ifs <;> simp

/-- A take-profit whose quote arrives sells its part, and the peak starts over. -/
theorem profit_taken {a : Answers} {snapshot : Snapshot} {ledger : Ledger} {p : Position}
    {records : List SellRecord} {mint : Mint} {positionId : Uuid} {holding : Holding} {quote : Quote}
    (h : Shows ledger mint (some p) records) (hp : Untouched mint positionId holding p)
    (hmint : snapshot.mint = mint) (hid : snapshot.position.positionId = positionId)
    (hsome : 1 ≤ sellable p.tokenAmountRaw) (hexit : a.exit = .ok quote) :
    ∃ p' new, Shows (Flow.rest a (.claiming ⟨snapshot, .takeProfit30Sell80, none⟩) ledger) mint (some p')
        (records ++ new) ∧
      Tells mint positionId [⟨.takeProfit30Sell80, sellable p.tokenAmountRaw, quote⟩] new ∧
      Stands mint positionId (.after (p.tokenAmountRaw - sellable p.tokenAmountRaw) []) (some p') := by
  subst hmint
  have hsame : snapshot.position.positionId = p.positionId := hid.trans hp.held.positionId.symm
  have hpos := hp.held.amount
  have hlt := sellable_lt hpos
  obtain ⟨ledger', hrest, hshows⟩ :=
    @rest_claiming a ⟨snapshot, .takeProfit30Sell80, none⟩ _ _ _ h hsame hp.held.free
  have hflow : Plan.claimed ⟨snapshot, .takeProfit30Sell80, none⟩ a.exitId p.tokenAmountRaw =
      .quoting ⟨snapshot, .takeProfit30Sell80, none⟩ a.exitId (sellable p.tokenAmountRaw) := by
    unfold Plan.claimed
    simp only [exitAmount_takeProfit]
    rw [if_neg (by omega)]
  have hnext : (Flow.quoting ⟨snapshot, .takeProfit30Sell80, none⟩ a.exitId
      (sellable p.tokenAmountRaw)).next a ledger' =
      some (.selling ⟨snapshot, .takeProfit30Sell80, none⟩ a.exitId (sellable p.tokenAmountRaw) quote,
        ledger') := by
    simp only [Flow.next, Flow.request, Flow.answered, hexit]
    rfl
  rw [hrest, hflow, rest_next hnext]
  have hsold := @rest_selling a ⟨snapshot, .takeProfit30Sell80, none⟩ ledger' _ _
    (sellable p.tokenAmountRaw) quote hshows hsame rfl (by simp) hsome hlt.le
  have hleft : ¬ ((Plan.sale ⟨snapshot, .takeProfit30Sell80, none⟩ a.exitId (sellable p.tokenAmountRaw)
      quote).leaves (p.claimed a.exitId .takeProfit30Sell80) (sellable p.tokenAmountRaw)).tokenAmountRaw ≤ 0 := by
    show ¬ p.tokenAmountRaw - sellable p.tokenAmountRaw ≤ 0
    omega
  rw [if_neg hleft] at hsold
  have htells := @tells_record ⟨snapshot, .takeProfit30Sell80, none⟩ (p.claimed a.exitId .takeProfit30Sell80)
    _ positionId a.exitId (sellable p.tokenAmountRaw) quote rfl hp.held.positionId
  refine ⟨_, _, hsold, htells, .after ⟨?_, ?_, ?_, ?_, ?_⟩ rfl rfl ?_ ?_⟩
  · exact hp.held.mint
  · exact hp.held.positionId
  · show 0 < p.tokenAmountRaw - sellable p.tokenAmountRaw
    omega
  · have hcost := @costReleased_lt (p.claimed a.exitId .takeProfit30Sell80) _ hp.held.cost hlt hsome
    exact sub_pos.2 hcost
  · simp [SellRequest.leaves, Position.markTakeProfit, Plan.sale, ExitReason.isFirstTakeProfit, Position.sold]
  · simp [SellRequest.leaves, Position.markTakeProfit, Plan.sale, ExitReason.isFirstTakeProfit]
  · intro mark hmark
    cases hmark

/-- The stop before the take-profit, in the strategy's terms. -/
theorem stopTriggered_before {p : Position} (hcost : 0 < p.remainingCostLamports) (hopen : p.takeProfitDone = false)
    (value : Int) : stopTriggered p value ↔
      (value : ℚ) ≤ stopPart (holdingOf p).routeType * (holdingOf p).costLamports := by
  have hpos : (0 : ℚ) < p.remainingCostLamports := by exact_mod_cast hcost
  unfold stopTriggered holdingOf
  rw [if_neg (by simp [hopen]), div_le_iff₀ hpos]
  cases hroute : p.routeType
  · simp [stopPart, stopLossRatio]
  · simp [stopPart, routeBStopLossRatio]

theorem stopReason_before {p : Position} (hopen : p.takeProfitDone = false) :
    stopReason p = initialStop p.routeType := by
  unfold stopReason
  rw [if_neg (by simp [hopen])]
  cases p.routeType
  · rfl
  · rfl

/-- The stop after the take-profit looks at the peak of the marks so far. -/
theorem stopTriggered_after {p : Position} {marks : List Int} (hdone : p.takeProfitDone = true)
    (hpeak : p.postTpPeakExitValueLamports = marks.max?.getD 0) (hmarks : ∀ mark ∈ marks, 0 < mark) (value : Int) :
    stopTriggered p value ↔ ∃ peak ∈ marks.max?, (value : ℚ) ≤ peak / 2 := by
  unfold stopTriggered
  rw [if_pos hdone, hpeak]
  cases hmax : marks.max? with
  | none => simp
  | some peak =>
    have hpos : 0 < peak := hmarks peak (List.max?_mem hmax)
    have hhalf : (value : ℚ) ≤ peak / 2 ↔ value * 2 ≤ peak := by
      rw [le_div_iff₀ (by norm_num)]
      exact_mod_cast Iff.rfl
    simp [hpos, hhalf]

theorem Held.marked {mint : Mint} {positionId : Uuid} {p : Position} (h : Held mint positionId p)
    (value now : Int) : Held mint positionId (p.marked value now) := by
  refine ⟨h.mint, h.positionId, h.amount, h.cost, ?_⟩
  have hfree := h.free
  unfold Position.marked
  simp only
  rw [if_pos hfree]
  simp

theorem Held.quoteFailed {mint : Mint} {positionId : Uuid} {p : Position} (h : Held mint positionId p)
    (error : String) (now : Int) : Held mint positionId (p.quoteFailed error now) := by
  refine ⟨h.mint, h.positionId, h.amount, h.cost, ?_⟩
  have hfree := h.free
  unfold Position.quoteFailed
  simp only
  split_ifs <;> simp [hfree]

/-- A held position is evaluated. -/
theorem Held.evaluated {mint : Mint} {positionId : Uuid} {p : Position} {ledger : Ledger}
    {records : List SellRecord} (h : Held mint positionId p) (hl : Shows ledger mint (some p) records)
    (a : Answers) : evaluateOpen a mint ledger = Flow.rest a (.evaluating ⟨mint, p, a.sales⟩) ledger := by
  have hamount := h.amount
  have hcost := h.cost
  have hskip : ¬ skips p := by
    rintro (hz | hz | hpending)
    · omega
    · omega
    · exact h.free hpending
  unfold evaluateOpen evaluatePaperPosition
  simp only [hl.position]
  rw [if_neg hskip, h.mint]

/-- The ledger after an evaluation, where the strategy is `next`. -/
def Follows (mint : Mint) (positionId : Uuid) (next : Stage × Option Sale) (records : List SellRecord)
    (ledger : Ledger) : Prop :=
  ∃ position new, Shows ledger mint position (records ++ new) ∧ Stands mint positionId next.1 position ∧
    Tells mint positionId next.2.toList new

theorem follows_quiet {mint : Mint} {positionId : Uuid} {stage : Stage} {position : Option Position}
    {records : List SellRecord} {ledger : Ledger} (hl : Shows ledger mint position records)
    (hs : Stands mint positionId stage position) : Follows mint positionId (stage, none) records ledger :=
  ⟨position, [], by rwa [List.append_nil], hs, tells_nothing mint positionId⟩

/-- An evaluation before the take-profit. -/
theorem follows_before {mint : Mint} {positionId : Uuid} {holding : Holding} {p : Position} {ledger : Ledger}
    {records : List SellRecord} {a : Answers} {quote : Quote} (hp : Untouched mint positionId holding p)
    (hl : Shows ledger mint (some p) records) (hdetect : a.detection = .ok quote) :
    Follows mint positionId ((Stage.before holding).step (.valued quote (a.exit.toOption.map Subtype.val)))
      records (evaluateOpen a mint ledger) := by
  obtain rfl := hp.holding
  rw [hp.held.evaluated hl, rest_detected hdetect]
  have hid := hp.held.positionId
  have hmarked : Shows ((Op.mark mint p.positionId quote a.markedAt).run ledger).2 mint
      (some (p.marked quote a.markedAt)) records := shows_mark hl quote.2
  have hp' : Untouched mint positionId (holdingOf p) (p.marked quote a.markedAt) :=
    ⟨hp.held.marked quote a.markedAt, hp.open_, rfl⟩
  have hcost : (0 : ℚ) < p.remainingCostLamports := by exact_mod_cast hp.held.cost
  simp only [Stage.step, exitPlan?, stopTriggered_before hp.held.cost hp.open_]
  by_cases hstop : (quote.1 : ℚ) ≤ stopPart (holdingOf p).routeType * (holdingOf p).costLamports
  · rw [if_pos hstop, if_pos hstop]
    obtain ⟨new, hshows, htells⟩ := @stop_sells a ⟨⟨mint, p, a.sales⟩, stopReason p, some (quote.1, p.tokenAmountRaw)⟩
      _ _ _ _ _ _ hmarked hp'.held rfl hid (by rw [stopReason_before hp.open_]; cases p.routeType <;> rfl)
      (by rw [stopReason_before hp.open_]; cases p.routeType <;> simp [initialStop]) rfl
    rw [stopReason_before hp.open_] at htells
    exact ⟨none, new, hshows, .closed, htells⟩
  · rw [if_neg hstop, if_neg hstop]
    have hratio : takeProfitRatio ≤ (quote.1 : ℚ) / p.remainingCostLamports ∧ ¬ p.takeProfitDone ↔
        (130 / 100 : ℚ) * (holdingOf p).costLamports ≤ quote.1 := by
      unfold takeProfitRatio
      rw [le_div_iff₀ hcost]
      simp [hp.open_, holdingOf]
    simp only [hratio]
    by_cases hprofit : (130 / 100 : ℚ) * (holdingOf p).costLamports ≤ quote.1
    · rw [if_pos hprofit]
      by_cases hsome : 1 ≤ sellable (holdingOf p).tokenAmountRaw
      · rw [if_pos ⟨hprofit, hsome⟩]
        cases hexit : a.exit with
        | ok exitQuote =>
          obtain ⟨p', new, hshows, htells, hstands⟩ :=
            @profit_taken a ⟨mint, p, a.sales⟩ _ _ _ _ _ _ _ hmarked hp' rfl hid hsome hexit
          exact ⟨some p', new, hshows, hstands, htells⟩
        | error error =>
          obtain ⟨p', hshows, hmissed⟩ := @profit_missed a ⟨mint, p, a.sales⟩ _ _ _ _ _ _ hmarked hp' rfl hid
            (.inr (by rw [hexit]; rfl))
          exact follows_quiet hshows hmissed.stands
      · rw [if_neg (fun hboth => hsome hboth.2)]
        obtain ⟨p', hshows, hmissed⟩ :=
          @profit_missed a ⟨mint, p, a.sales⟩ _ _ _ _ _ _ hmarked hp' rfl hid (.inl hsome)
        exact follows_quiet hshows hmissed.stands
    · rw [if_neg hprofit, if_neg (fun hboth => hprofit hboth.1)]
      simp only [Option.map_none, Option.getD_none]
      rw [rest_finished rfl]
      exact follows_quiet hmarked hp'.stands

/-- An evaluation after the take-profit. -/
theorem follows_after {mint : Mint} {positionId : Uuid} {p : Position} {marks : List Int} {ledger : Ledger}
    {records : List SellRecord} {a : Answers} {quote : Quote} {exitQuote : Option Int}
    (hp : Held mint positionId p) (hdone : p.takeProfitDone = true)
    (hpeak : p.postTpPeakExitValueLamports = marks.max?.getD 0) (hmarks : ∀ mark ∈ marks, 0 < mark)
    (hl : Shows ledger mint (some p) records) (hdetect : a.detection = .ok quote) :
    Follows mint positionId ((Stage.after p.tokenAmountRaw marks).step (.valued quote exitQuote)) records
      (evaluateOpen a mint ledger) := by
  rw [hp.evaluated hl, rest_detected hdetect]
  have hid := hp.positionId
  have hmarked : Shows ((Op.mark mint p.positionId quote a.markedAt).run ledger).2 mint
      (some (p.marked quote a.markedAt)) records := shows_mark hl quote.2
  have hp' : Held mint positionId (p.marked quote a.markedAt) := hp.marked quote a.markedAt
  have hreason : stopReason p = .postTpTrailingStop50 := by
    unfold stopReason
    rw [if_pos hdone]
  simp only [Stage.step, exitPlan?, stopTriggered_after hdone hpeak hmarks]
  split_ifs with hstop hagain
  · obtain ⟨new, hshows, htells⟩ := @stop_sells a
      ⟨⟨mint, p, a.sales⟩, stopReason p, some (quote.1, p.tokenAmountRaw)⟩ _ _ _ _ _ _ hmarked hp' rfl hid
      (by rw [hreason]; rfl) (by rw [hreason]; simp) rfl
    rw [hreason] at htells
    exact ⟨none, new, hshows, .closed, htells⟩
  · exact absurd hdone hagain.2
  · simp only [Option.map_none, Option.getD_none]
    rw [rest_finished rfl]
    refine follows_quiet hmarked (.after hp' hdone rfl ?_ ?_)
    · -- the mark of this evaluation counts from the next one on
      show (if p.takeProfitDone then max p.postTpPeakExitValueLamports quote.1
        else p.postTpPeakExitValueLamports) = _
      rw [if_pos hdone, hpeak, List.max?_cons]
      cases hmax : marks.max? with
      | none =>
        have := quote.2
        simp
        omega
      | some peak => simp [max_comm]
    · intro mark hmark
      rcases List.mem_cons.1 hmark with rfl | hmark
      · exact quote.2
      · exact hmarks mark hmark

/-- Every evaluation does what the strategy does. -/
theorem evaluation_follows {mint : Mint} {positionId : Uuid} {stage : Stage} {position : Option Position}
    {records : List SellRecord} {ledger : Ledger} (hs : Stands mint positionId stage position)
    (hl : Shows ledger mint position records) (a : Answers) :
    Follows mint positionId (stage.step a.reading) records (evaluateOpen a mint ledger) := by
  unfold Answers.reading
  cases hdetect : a.detection with
  | error error =>
    have hstay : stage.step .failed = (stage, none) := by cases stage <;> rfl
    rw [hstay]
    cases hs with
    | @before p holding hp hopen hholding =>
      rw [hp.evaluated hl, rest_undetected hdetect]
      exact follows_quiet (shows_quoteFailure hl) (.before (hp.quoteFailed error a.failedAt) hopen hholding)
    | @after p amount marks hp hdone hamount hpeak hmarks =>
      rw [hp.evaluated hl, rest_undetected hdetect]
      exact follows_quiet (shows_quoteFailure hl)
        (.after (hp.quoteFailed error a.failedAt) hdone hamount hpeak hmarks)
    | closed =>
      unfold evaluateOpen
      simp only [hl.position]
      exact follows_quiet hl .closed
  | ok quote =>
    cases hs with
    | before hp hopen hholding => exact follows_before ⟨hp, hopen, hholding⟩ hl hdetect
    | after hp hdone hamount hpeak hmarks =>
      subst hamount
      exact follows_after hp hdone hpeak hmarks hl hdetect
    | closed =>
      unfold evaluateOpen
      simp only [hl.position]
      exact follows_quiet hl .closed

/-! ## Whole runs -/

/-- The SELL records of each evaluation, with its number. -/
def recordedExits (mint : Mint) : Nat → List Answers → Ledger → List (Nat × SellRecord)
  | _, [], _ => []
  | n, a :: evaluations, ledger =>
    let ledger' := evaluateOpen a mint ledger
    ((sells ledger'.events).drop (sells ledger.events).length).map (n, ·) ++
      recordedExits mint (n + 1) evaluations ledger'

theorem recordedExits_follow {mint : Mint} {positionId : Uuid} : ∀ (evaluations : List Answers) (n : Nat)
    {stage : Stage} {position : Option Position} {records : List SellRecord} {ledger : Ledger},
    Stands mint positionId stage position → Shows ledger mint position records →
    (recordedExits mint n evaluations ledger).map (fun x => (x.1, saleOf x.2)) =
        stage.exits n (evaluations.map Answers.reading) ∧
      ∀ x ∈ recordedExits mint n evaluations ledger, x.2.mint = mint ∧ x.2.positionId = positionId
  | [], n, stage, position, records, ledger, hs, hl => by
    refine ⟨rfl, ?_⟩
    intro x hx
    cases hx
  | a :: evaluations, n, stage, position, records, ledger, hs, hl => by
    obtain ⟨position', new, hl', hs', htells⟩ := evaluation_follows hs hl a
    obtain ⟨hrest, hmints⟩ := recordedExits_follow evaluations (n + 1) hs' hl'
    have hnew : (sells (evaluateOpen a mint ledger).events).drop (sells ledger.events).length = new := by
      rw [hl'.records, hl.records, List.drop_left]
    simp only [recordedExits, hnew, List.map_cons, Stage.exits]
    constructor
    · rw [List.map_append, hrest, List.map_map]
      congr 1
      have hsales := congrArg (List.map (fun sale => (n, sale))) htells.sales
      rw [List.map_map] at hsales
      refine hsales.trans ?_
      cases (stage.step a.reading).2 <;> rfl
    · intro x hx
      rcases List.mem_append.1 hx with hx | hx
      · obtain ⟨record, hrecord, rfl⟩ := List.mem_map.1 hx
        exact ⟨htells.mint record hrecord, htells.positionId record hrecord⟩
      · exact hmints x hx

/-- The exits of a position are those of the strategy. A manager that alone evaluates an open position
it does not skip, before its take-profit, any number of times and whatever its quotes give, has recorded
after each evaluation exactly the sales the strategy makes up to it, and all of them from this position. -/
theorem exits_follow_strategy (ledger : Ledger) (p : Position) (hopen : ledger.position? p.mint = some p)
    (hevaluated : ¬ skips p) (hbefore : p.takeProfitDone = false) (evaluations : List Answers) :
    (recordedExits p.mint 0 evaluations ledger).map (fun x => (x.1, saleOf x.2)) =
        (Stage.before (holdingOf p)).exits 0 (evaluations.map Answers.reading) ∧
      ∀ x ∈ recordedExits p.mint 0 evaluations ledger, x.2.mint = p.mint ∧ x.2.positionId = p.positionId := by
  have hheld : Held p.mint p.positionId p := by
    refine ⟨rfl, rfl, ?_, ?_, ?_⟩
    · by_contra hz
      exact hevaluated (.inl (by omega))
    · by_contra hz
      exact hevaluated (.inr (.inl (by omega)))
    · intro hpending
      exact hevaluated (.inr (.inr hpending))
  exact recordedExits_follow evaluations 0 (.before hheld hbefore rfl) ⟨hopen, rfl⟩

/-- Ten tokens bought for a hundred lamports. -/
def tenTokens : Position :=
  BuyRequest.position ⟨"mint", 100, 10, none, none, 0, "A", 0, "", none, none⟩ .A ⟨0⟩ 1 (.instant 0)

/-- An evaluation that finds this value, and this answer to the quote of a take-profit. -/
def evaluationAt (quote : Quote) (exit : Except String Quote) : Answers := ⟨.ok quote, exit, ⟨1⟩, 1, 2, 3, 0⟩

/-- A failed quote, a take-profit at the third evaluation, and the trailing stop at half of the second
mark after it. -/
theorem exits_follow_strategy_trailing :
    (recordedExits "mint" 0
        [⟨.error "timeout", .error "", ⟨1⟩, 1, 2, 3, 0⟩, evaluationAt ⟨120, by decide⟩ (.error ""),
          evaluationAt ⟨130, by decide⟩ (.ok ⟨104, by decide⟩), evaluationAt ⟨30, by decide⟩ (.error ""),
          evaluationAt ⟨100, by decide⟩ (.error ""), evaluationAt ⟨50, by decide⟩ (.error "")]
        (emptyLedger.setPosition "mint" tenTokens)).map (fun x => (x.1, saleOf x.2)) =
      [(2, ⟨.takeProfit30Sell80, 8, 104⟩), (5, ⟨.postTpTrailingStop50, 2, 50⟩)] := by
  have h := (exits_follow_strategy (emptyLedger.setPosition "mint" tenTokens) tenTokens
    (by simp [tenTokens, BuyRequest.position]) (by decide) rfl
    [⟨.error "timeout", .error "", ⟨1⟩, 1, 2, 3, 0⟩, evaluationAt ⟨120, by decide⟩ (.error ""),
      evaluationAt ⟨130, by decide⟩ (.ok ⟨104, by decide⟩), evaluationAt ⟨30, by decide⟩ (.error ""),
      evaluationAt ⟨100, by decide⟩ (.error ""), evaluationAt ⟨50, by decide⟩ (.error "")]).1
  refine h.trans ?_
  decide +kernel

/-- A take-profit whose quote fails is no exit: the value is at 1.3 times the cost and eight tokens can
be sold, yet the first evaluation records nothing, and the second, at 80, stops. -/
theorem takeProfit_needs_its_quote : ∃ (ledger : Ledger) (p : Position) (first second : Answers) (quote : Quote),
    ledger.position? p.mint = some p ∧ ¬ skips p ∧ p.takeProfitDone = false ∧ first.detection = .ok quote ∧
    (130 / 100 : ℚ) * p.remainingCostLamports ≤ quote.1 ∧ 1 ≤ sellable p.tokenAmountRaw ∧
    (recordedExits p.mint 0 [first, second] ledger).map (fun x => (x.1, saleOf x.2)) =
      [(1, ⟨.stopLoss15, 10, 80⟩)] := by
  refine ⟨emptyLedger.setPosition "mint" tenTokens, tenTokens, evaluationAt ⟨130, by decide⟩ (.error "timeout"),
    evaluationAt ⟨80, by decide⟩ (.error "timeout"), ⟨130, by decide⟩, ?_, by decide, rfl, rfl, ?_, by decide, ?_⟩
  · simp [tenTokens, BuyRequest.position]
  · norm_num [tenTokens, BuyRequest.position]
  · decide +kernel

end Aibot.Exit
