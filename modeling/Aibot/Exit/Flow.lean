/-
The exit flows of the paper mode: `evaluate_paper_position`, `_execute_paper_exit` and
`close_paper_position` as coroutines. A flow stops at every quote it waits for and before every
ledger write it makes, so any number of flows interleave there; between two stops it is one pure
function of what it got back.
-/
import Aibot.Risk.Sales

namespace Aibot.Exit

open Aibot.Risk

/-! ## Decisions -/

/-- A position as a flow read it, the mint the flow works on, and the number of the position's
sales until then. The count is history only: no decision reads it. -/
structure Snapshot where
  mint : Mint
  position : Position
  sales : Nat

/-- An exit a flow has decided on: the detection quote's proceeds and the amount they are for, when
the exit sells by that quote. -/
structure Plan where
  snapshot : Snapshot
  reason : ExitReason
  detected : Option (Int × Int)

/-- `evaluate_paper_position` returns at once. -/
def skips (position : Position) : Prop :=
  position.tokenAmountRaw ≤ 0 ∨ position.remainingCostLamports ≤ 0 ∨ position.riskState = .exitPending

instance (position : Position) : Decidable (skips position) :=
  inferInstanceAs (Decidable (_ ∨ _ ∨ _))

/-- `stop_triggered`, on the position as it was read. -/
def stopTriggered (position : Position) (currentValue : Int) : Prop :=
  if position.takeProfitDone then
    0 < position.postTpPeakExitValueLamports ∧ currentValue * 2 ≤ position.postTpPeakExitValueLamports
  else (currentValue : ℚ) / position.remainingCostLamports ≤
    if position.routeType = .B then routeBStopLossRatio else stopLossRatio

instance (position : Position) (currentValue : Int) : Decidable (stopTriggered position currentValue) := by
  unfold stopTriggered; infer_instance

/-- The reason of a triggered stop. -/
def stopReason (position : Position) : ExitReason :=
  if position.takeProfitDone then .postTpTrailingStop50
  else if position.routeType = .B then .routeBStopLoss10 else .stopLoss15

/-- What `evaluate_paper_position` does with the value of its quote, once the mark is recorded: a
stop sells by the detection quote, a take-profit quotes again. -/
def exitPlan? (snapshot : Snapshot) (currentValue : Int) : Option Plan :=
  let position := snapshot.position
  if stopTriggered position currentValue then
    some ⟨snapshot, stopReason position, some (currentValue, position.tokenAmountRaw)⟩
  else if takeProfitRatio ≤ (currentValue : ℚ) / position.remainingCostLamports ∧
      ¬ position.takeProfitDone then
    some ⟨snapshot, .takeProfit30Sell80, none⟩
  else none

/-- The reasons that sell the whole position. -/
def sellsAll : ExitReason → Bool
  | .stopLoss15 | .routeBStopLoss10 | .tpBreakEven | .postTpTrailingStop50 | .manualClose => true
  | _ => false

/-- The amount an exit sells of the claimed amount. `close_paper_position` sells all of it. -/
def exitAmount (reason : ExitReason) (currentAmount : Int) : Int :=
  if sellsAll reason then currentAmount else (currentAmount * takeProfitSellPercent).fdiv 100

/-! ## Flows -/

/-- Where a flow is: what it waits for, or which ledger write it is about to make. -/
inductive Flow
  | idle
  /-- Waiting for the detection quote. -/
  | evaluating (snapshot : Snapshot)
  /-- About to record the mark. -/
  | marking (snapshot : Snapshot) (currentValue : Int)
  /-- About to claim the exit. -/
  | claiming (plan : Plan)
  /-- Waiting for the exit quote, with the claim. -/
  | quoting (plan : Plan) (exitId : Uuid) (amount : Int)
  /-- About to record the sale. -/
  | selling (plan : Plan) (exitId : Uuid) (amount proceeds : Int)
  /-- About to give the claim back; `failure` is the exception it is handling. -/
  | releasing (plan : Plan) (exitId : Uuid) (failure : Option String)
  /-- About to record a failed quote. -/
  | failing (mint : Mint) (positionId : Uuid) (error : String)
  | finished

/-- The exit id a flow holds. -/
def Flow.holds : Flow → Option Uuid
  | .quoting _ exitId _ | .selling _ exitId _ _ | .releasing _ exitId _ => some exitId
  | _ => none

/-- The ledger call a flow is about to make; `freshId` and `now` are what it draws. -/
def Flow.request (freshId : Uuid) (now : Int) : Flow → Option Op
  | .marking s value => some (.mark s.mint s.position.positionId value now)
  | .claiming plan =>
    some (.claim plan.snapshot.mint plan.snapshot.position.positionId plan.reason freshId)
  | .selling plan exitId amount proceeds =>
    some (.sell ⟨plan.snapshot.mint, amount, proceeds, plan.reason,
      some plan.snapshot.position.positionId, some exitId⟩ now)
  | .releasing plan exitId failure =>
    some (.release plan.snapshot.mint plan.snapshot.position.positionId exitId failure.isSome)
  | .failing mint positionId error => some (.quoteFailure mint positionId error now)
  | .idle | .evaluating _ | .quoting .. | .finished => none

/-- A flow that has its claim, on the amount it was granted. -/
def Plan.claimed (plan : Plan) (exitId : Uuid) (currentAmount : Int) : Flow :=
  let amount := exitAmount plan.reason currentAmount
  if amount ≤ 0 then .releasing plan exitId none
  else match plan.detected with
    | none => .quoting plan exitId amount
    | some (proceeds, detectedAmount) =>
      if detectedAmount ≠ amount then .releasing plan exitId none
      else .selling plan exitId amount proceeds

/-- Where a flow goes with the answer of its ledger call. -/
def Flow.resume (ret : Ret) : Flow → Flow
  | .marking s value => ((exitPlan? s value).map Flow.claiming).getD .finished
  | .claiming plan =>
    match ret.grant? with
    | none => .finished
    | some (exitId, currentAmount) => plan.claimed exitId currentAmount
  | .selling plan exitId _ _ =>
    if ret.recordedSale = false ∧ plan.reason = .manualClose then
      .releasing plan exitId (some "position changed before manual close was committed")
    else .finished
  | .releasing plan _ failure =>
    match failure with
    | none => .finished
    | some error => .failing plan.snapshot.mint plan.snapshot.position.positionId error
  | .failing .. => .finished
  | flow => flow

/-- Where a flow goes when its quote arrives. -/
def Flow.quoted (outAmount : Int) : Flow → Option Flow
  | .evaluating s => some (.marking s outAmount)
  | .quoting plan exitId amount => some (.selling plan exitId amount outAmount)
  | _ => none

/-- Where a flow goes when its quote raises an `Exception`. -/
def Flow.quoteRaises (error : String) : Flow → Option Flow
  | .evaluating s => some (.failing s.mint s.position.positionId error)
  | .quoting plan exitId _ => some (.releasing plan exitId (some error))
  | _ => none

/-- Where a flow goes when the ledger call it is about to make raises an `Exception` (a lock
timeout, a failed write): only the sale is inside the `try` block. -/
def Flow.writeRaises (error : String) : Flow → Option Flow
  | .selling plan exitId _ _ => some (.releasing plan exitId (some error))
  | .marking .. | .claiming .. | .releasing .. | .failing .. => some .finished
  | _ => none

/-! ## The system -/

/-- The ledger and the flows of all processes. -/
structure Exits where
  world : World
  flows : Nat → Flow
  /-- For every recorded mark, the amount it was quoted for and the amount it was stored on. -/
  stores : List (Int × Int)
  /-- For every recorded take-profit sale, whether the take-profit was done before. -/
  profitSales : List Bool

def Exits.start : Exits := ⟨World.start, fun _ => .idle, [], []⟩

/-- What can happen next. -/
inductive Act
  /-- A flow evaluates the position of `mint` it has just read. -/
  | evaluate (flow : Nat) (mint : Mint)
  | close (flow : Nat) (mint : Mint)
  | quoteArrives (flow : Nat) (outAmount : Int)
  | quoteRaises (flow : Nat) (error : String)
  /-- The ledger call of the flow commits. -/
  | writes (flow : Nat) (freshId : Uuid) (now : Int)
  | writeRaises (flow : Nat) (error : String)
  /-- The flow is cancelled, or its process dies. -/
  | abandon (flow : Nat)
  /-- A ledger call that is no step of an exit. -/
  | other (op : Op)

/-- The number of sales of a position so far. -/
def Exits.salesOf (s : Exits) (positionId : Uuid) : Nat := (sellsOf s.world.recorded positionId).length

/-- Move one flow. -/
def Exits.move (s : Exits) (f : Nat) (flow : Flow) : Exits :=
  { s with flows := Function.update s.flows f flow }

/-- The amounts of a mark that is about to be stored. -/
def Exits.storing (s : Exits) : Flow → Option (Int × Int)
  | .marking snapshot value =>
    (s.world.ledger.positionWithId? snapshot.mint snapshot.position.positionId).bind
      fun q => if value < 0 then none else some (snapshot.position.tokenAmountRaw, q.tokenAmountRaw)
  | _ => none

/-- The take-profit flag a take-profit sale is about to find. -/
def Exits.profitTaking (s : Exits) (ret : Ret) : Flow → Option Bool
  | .selling plan _ _ _ =>
    if ret.recordedSale ∧ plan.reason = .takeProfit30Sell80 then
      (s.world.ledger.position? plan.snapshot.mint).map Position.takeProfitDone
    else none
  | _ => none

/-- The state after the ledger call of a flow. -/
def Exits.wrote (s : Exits) (f : Nat) (op : Op) (world : World) : Exits :=
  let ret := (op.run s.world.ledger).1
  { world := world
    flows := Function.update s.flows f ((s.flows f).resume ret)
    stores := s.stores ++ (s.storing (s.flows f)).toList
    profitSales := s.profitSales ++ (s.profitTaking ret (s.flows f)).toList }

/-- One step of the system. -/
def Exits.step (s : Exits) : Act → Option Exits
  | .evaluate f mint =>
    match s.flows f, s.world.ledger.position? mint with
    | .idle, some p =>
      some (s.move f (if skips p then .finished else .evaluating ⟨p.mint, p, s.salesOf p.positionId⟩))
    | _, _ => none
  | .close f mint =>
    match s.flows f, s.world.ledger.position? mint with
    | .idle, some p =>
      some (s.move f (.claiming ⟨⟨mint, p, s.salesOf p.positionId⟩, .manualClose, none⟩))
    | _, _ => none
  | .quoteArrives f outAmount =>
    if 0 < outAmount then ((s.flows f).quoted outAmount).map (s.move f) else none
  | .quoteRaises f error => ((s.flows f).quoteRaises error).map (s.move f)
  | .writes f freshId now =>
    ((s.flows f).request freshId now).bind fun op => (s.world.step op).map (s.wrote f op)
  | .writeRaises f error => ((s.flows f).writeRaises error).map (s.move f)
  | .abandon f => some (s.move f .finished)
  | .other op =>
    if op.offExit then (s.world.step op).map fun world => { s with world := world } else none

/-! ## What a step does -/

/-- The ways a flow moves without a ledger call. -/
inductive Exits.Moves (s : Exits) : Act → Flow → Flow → Prop
  | evaluates {f : Nat} {mint : Mint} {p : Position} : s.world.ledger.position? mint = some p →
      ¬ Exit.skips p → Moves s (.evaluate f mint) .idle (.evaluating ⟨p.mint, p, s.salesOf p.positionId⟩)
  | skips {f : Nat} {mint : Mint} : Moves s (.evaluate f mint) .idle .finished
  | closes {f : Nat} {mint : Mint} {p : Position} : s.world.ledger.position? mint = some p →
      Moves s (.close f mint) .idle (.claiming ⟨⟨mint, p, s.salesOf p.positionId⟩, .manualClose, none⟩)
  | detects {f : Nat} {snapshot : Snapshot} {value : Int} :
      Moves s (.quoteArrives f value) (.evaluating snapshot) (.marking snapshot value)
  | quotes {f : Nat} {plan : Plan} {exitId : Uuid} {amount proceeds : Int} :
      Moves s (.quoteArrives f proceeds) (.quoting plan exitId amount) (.selling plan exitId amount proceeds)
  | detectionFails {f : Nat} {snapshot : Snapshot} {error : String} :
      Moves s (.quoteRaises f error) (.evaluating snapshot)
        (.failing snapshot.mint snapshot.position.positionId error)
  | quoteFails {f : Nat} {plan : Plan} {exitId : Uuid} {amount : Int} {error : String} :
      Moves s (.quoteRaises f error) (.quoting plan exitId amount) (.releasing plan exitId (some error))
  | saleFails {f : Nat} {plan : Plan} {exitId : Uuid} {amount proceeds : Int} {error : String} :
      Moves s (.writeRaises f error) (.selling plan exitId amount proceeds)
        (.releasing plan exitId (some error))
  | releaseFails {f : Nat} {plan : Plan} {exitId : Uuid} {failure : Option String} {error : String} :
      Moves s (.writeRaises f error) (.releasing plan exitId failure) .finished
  | writeFails {f : Nat} {flow : Flow} {error : String} : flow.holds = none →
      Moves s (.writeRaises f error) flow .finished
  | abandoned {f : Nat} {flow : Flow} : Moves s (.abandon f) flow .finished

/-- The flow an action moves. -/
def Act.flow? : Act → Option Nat
  | .evaluate f _ | .close f _ | .quoteArrives f _ | .quoteRaises f _ | .writes f _ _
  | .writeRaises f _ | .abandon f => some f
  | .other _ => none

/-- What a step does. -/
inductive Exits.Shape (s : Exits) : Act → Exits → Prop
  | moved {a : Act} {f : Nat} {flow : Flow} : a.flow? = some f → s.Moves a (s.flows f) flow →
      Shape s a (s.move f flow)
  | wrote {f : Nat} {freshId : Uuid} {now : Int} {op : Op} {world : World} :
      (s.flows f).request freshId now = some op → s.world.step op = some world →
      Shape s (.writes f freshId now) (s.wrote f op world)
  | other {op : Op} {world : World} : op.offExit = true → s.world.step op = some world →
      Shape s (.other op) { s with world := world }

theorem step_shape {s s' : Exits} {a : Act} (h : s.step a = some s') : s.Shape a s' := by
  cases a with
  | evaluate f mint =>
    simp only [Exits.step] at h
    split at h
    · rename_i p hf hp
      cases h
      refine .moved rfl ?_
      rw [hf]
      split_ifs with hskip
      · exact .skips
      · exact .evaluates hp hskip
    · cases h
  | close f mint =>
    simp only [Exits.step] at h
    split at h
    · rename_i p hf hp
      cases h
      refine .moved rfl ?_
      rw [hf]
      exact .closes hp
    · cases h
  | quoteArrives f v =>
    simp only [Exits.step] at h
    split_ifs at h
    obtain ⟨flow, hq, rfl⟩ := Option.map_eq_some_iff.1 h
    refine .moved rfl ?_
    generalize s.flows f = cur at hq
    cases cur <;> cases hq
    · exact .detects
    · exact .quotes
  | quoteRaises f error =>
    obtain ⟨flow, hq, rfl⟩ := Option.map_eq_some_iff.1 h
    refine .moved rfl ?_
    generalize s.flows f = cur at hq
    cases cur <;> cases hq
    · exact .detectionFails
    · exact .quoteFails
  | writes f freshId now =>
    obtain ⟨op, hop, h⟩ := Option.bind_eq_some_iff.1 h
    obtain ⟨world, hw, rfl⟩ := Option.map_eq_some_iff.1 h
    exact .wrote hop hw
  | writeRaises f error =>
    obtain ⟨flow, hq, rfl⟩ := Option.map_eq_some_iff.1 h
    refine .moved rfl ?_
    generalize s.flows f = cur at hq
    cases cur with
    | selling => cases hq; exact .saleFails
    | releasing => cases hq; exact .releaseFails
    | marking | claiming | failing => cases hq; exact .writeFails rfl
    | idle | evaluating | quoting | finished => cases hq
  | abandon f => cases h; exact .moved rfl .abandoned
  | other op =>
    simp only [Exits.step] at h
    split_ifs at h with hop
    obtain ⟨world, hw, rfl⟩ := Option.map_eq_some_iff.1 h
    exact .other hop hw

@[simp] theorem move_flows_self (s : Exits) (f : Nat) (flow : Flow) : (s.move f flow).flows f = flow :=
  Function.update_self ..

theorem move_flows_of_ne (s : Exits) {f g : Nat} (flow : Flow) (h : g ≠ f) :
    (s.move f flow).flows g = s.flows g :=
  Function.update_of_ne h ..

@[simp] theorem wrote_flows_self (s : Exits) (f : Nat) (op : Op) (w : World) :
    (s.wrote f op w).flows f = (s.flows f).resume (op.run s.world.ledger).1 :=
  Function.update_self ..

theorem wrote_flows_of_ne (s : Exits) {f g : Nat} (op : Op) (w : World) (h : g ≠ f) :
    (s.wrote f op w).flows g = s.flows g :=
  Function.update_of_ne h ..

/-- From the `n`-th on, no flow has started. -/
def IdleFrom (n : Nat) (s : Exits) : Prop := ∀ f, n ≤ f → s.flows f = .idle

/-- The flows that no action moves stay idle. -/
theorem flows_idle {n : Nat} {acts : List Act} {s : Exits}
    (h : Run Exits.step (fun _ a => ∀ f ∈ a.flow?, f < n) Exits.start acts s) : IdleFrom n s := by
  have hstep : ∀ s a s', IdleFrom n s → (∀ f ∈ a.flow?, f < n) → s.step a = some s' → IdleFrom n s' := by
    intro s a s' hs hok h g hg
    cases step_shape h with
    | @moved _ f flow hf _ =>
      have hlt := hok f hf
      rw [move_flows_of_ne s flow (by omega)]
      exact hs g hg
    | @wrote f _ _ op world _ _ =>
      have hlt := hok f rfl
      rw [wrote_flows_of_ne s op world (by omega)]
      exact hs g hg
    | other => exact hs g hg
  exact h.invariant hstep fun _ _ => rfl

end Aibot.Exit
