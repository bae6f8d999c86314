/-
`run_risk_loop(paper_trading=False)`: one process that polls the positions and exits them through
the live executor. It stops at every quote, at every `execute_sell` and before every ledger write;
the other processes' ledger calls come in between.
-/
import Aibot.Risk.Claims
import Aibot.Live.Executor

namespace Aibot.Live

open Aibot.Risk

/-! ## The loop's decisions -/

/-- The exit of a live position and the percentage it sells, on the position as it was polled. -/
def liveReason (position : Position) (outAmount : Int) : Option (ExitReason × Int) :=
  let ratio := (outAmount : ℚ) / position.remainingCostLamports
  if ratio ≤ stopLossRatio then some (.liveStopLoss15, 100)
  else if secondTakeProfitRatio ≤ ratio ∧ position.takeProfitDone ∧ ¬ position.secondTakeProfitDone then
    some (.liveTakeProfit100, 50)
  else if takeProfitRatio ≤ ratio ∧ ¬ position.takeProfitDone then some (.liveTakeProfit50, 50)
  else none

/-- A claimed live exit: `exit_quote` is the quote the sale will be recorded with. -/
structure LiveExit where
  reason : ExitReason
  percent : Int
  exitId : Uuid
  sold : Int

/-- Where the loop is in its visit of a position. -/
inductive Visit
  /-- Between two visits, or two polls. -/
  | idle
  | quoting (position : Position)
  | marking (position : Position) (outAmount : Int)
  | claiming (position : Position) (outAmount : Int) (reason : ExitReason) (percent : Int)
  | exitQuoting (position : Position) (exit : LiveExit)
  | executing (position : Position) (exit : LiveExit) (exitOutAmount : Int)
  | recording (position : Position) (exit : LiveExit) (exitOutAmount : Int) (result : ExecutionResult)
  | settling (position : Position) (exit : LiveExit) (exitOutAmount : Int) (landed : Bool)
  /-- In the `except` block of the exit. -/
  | releasing (position : Position) (exit : LiveExit)

/-- The ledger call the loop is about to make. -/
def Visit.request (freshId : Uuid) (now : Int) : Visit → Option Op
  | .marking p outAmount => some (.mark p.mint p.positionId outAmount now)
  | .claiming p _ reason _ => some (.claim p.mint p.positionId reason freshId)
  | .recording p _ _ result => some (.lifecycle p.mint p.positionId result.lifecycle)
  | .settling p exit exitOutAmount landed =>
    if landed then some (.sell ⟨p.mint, exit.sold, exitOutAmount, exit.reason, some p.positionId,
      some exit.exitId⟩ now)
    else some (.release p.mint p.positionId exit.exitId true)
  | .releasing p exit => some (.release p.mint p.positionId exit.exitId true)
  | .idle | .quoting _ | .exitQuoting .. | .executing .. => none

/-- Where the loop goes with the answer of its ledger call. -/
def Visit.resume (ret : Ret) : Visit → Visit
  | .marking p outAmount =>
    match liveReason p outAmount with
    | none => .idle
    | some (reason, percent) => .claiming p outAmount reason percent
  | .claiming p outAmount reason percent =>
    match ret.grant? with
    | none => .idle
    | some (exitId, claimedAmount) =>
      if percent = 50 then .exitQuoting p ⟨reason, percent, exitId, claimedAmount.fdiv 2⟩
      else .executing p ⟨reason, percent, exitId, claimedAmount⟩ outAmount
  | .recording p exit exitOutAmount result => .settling p exit exitOutAmount result.landed
  | .settling .. | .releasing .. => .idle
  | visit => visit

/-- Where the loop goes when a quote arrives. A position without cost basis raises
`ZeroDivisionError`. -/
def Visit.quoted (outAmount : Int) : Visit → Option Visit
  | .quoting p => some (if p.remainingCostLamports = 0 then .idle else .marking p outAmount)
  | .exitQuoting p exit => some (.executing p exit outAmount)
  | _ => none

/-- Where the loop goes when the step it is at raises an `Exception`: an exit under claim is
released, everything else is logged and skipped. -/
def Visit.raises : Visit → Option Visit
  | .exitQuoting p exit | .executing p exit _ | .recording p exit _ _ | .settling p exit _ _ =>
    some (.releasing p exit)
  | .quoting _ | .marking .. | .claiming .. | .releasing .. => some .idle
  | .idle => none

/-! ## The system -/

/-- The ledger, the loop, and the results of its `execute_sell` calls with the position each was
for. -/
structure LiveLoop where
  world : World
  queue : List Position
  visit : Visit
  outcomes : List (Uuid × ExecutionResult)

def LiveLoop.start : LiveLoop := ⟨World.start, [], .idle, []⟩

inductive LiveAct
  /-- `positions = list(read_ledger()["positions"].values())`. -/
  | poll
  /-- The next position of the poll. -/
  | next
  | quoteArrives (outAmount : Int)
  /-- `execute_sell` returns. -/
  | executes (input : SellInput)
  | writes (freshId : Uuid) (now : Int)
  /-- The step the loop is at raises. -/
  | raises
  /-- A ledger call of another process that is no step of an exit. -/
  | other (op : Op)

def LiveLoop.step (s : LiveLoop) : LiveAct → Option LiveLoop
  | .poll =>
    match s.visit, s.queue with
    | .idle, [] => some { s with queue := s.world.ledger.positions.values }
    | _, _ => none
  | .next =>
    match s.visit, s.queue with
    | .idle, p :: rest => some { s with queue := rest, visit := .quoting p }
    | _, _ => none
  | .quoteArrives outAmount =>
    if 0 < outAmount then (s.visit.quoted outAmount).map fun visit => { s with visit := visit } else none
  | .executes input =>
    match s.visit with
    | .executing p exit exitOutAmount =>
      match executeSell input p.mint exit.percent with
      | .error _ => some { s with visit := .releasing p exit }
      | .ok result => some { s with
          visit := .recording p exit exitOutAmount result
          outcomes := s.outcomes ++ [(p.positionId, result)] }
    | _ => none
  | .writes freshId now =>
    (s.visit.request freshId now).bind fun op => (s.world.step op).map fun world =>
      { s with world := world, visit := s.visit.resume (op.run s.world.ledger).1 }
  | .raises => s.visit.raises.map fun visit => { s with visit := visit }
  | .other op => if op.offExit then (s.world.step op).map fun world => { s with world := world } else none

/-! ## Unresolved submissions -/

/-- The call submitted a transaction for the position whose landing is unconfirmed. -/
def leftUnknown (positionId : Uuid) (x : Uuid × ExecutionResult) : Prop :=
  x.1 = positionId ∧ x.2.status = .unknown

/-- The earlier signature is looked up. The repository has no such step. -/
def reconciles (_ : Uuid) (_ : Uuid × ExecutionResult) : Prop := False

/-- The call submitted a transaction for the position. -/
def submits (positionId : Uuid) (x : Uuid × ExecutionResult) : Prop :=
  x.1 = positionId ∧ x.2.submitted = true

/-- No sell transaction of a position is submitted while an earlier one of it is unresolved. -/
def NeverResubmits (outcomes : List (Uuid × ExecutionResult)) : Prop :=
  ∀ positionId, NeverWhilePending (leftUnknown positionId) (reconciles positionId)
    (submits positionId) outcomes

/-- A submission of the position is unresolved. -/
def LiveLoop.unresolved (s : LiveLoop) (positionId : Uuid) : Prop :=
  Pending (leftUnknown positionId) (reconciles positionId) s.outcomes

/-- After an unresolved submission of a position, no quote of it triggers an exit. -/
def staysQuiet (s : LiveLoop) : LiveAct → Prop
  | .quoteArrives outAmount =>
    match s.visit with
    | .quoting p => s.unresolved p.positionId → liveReason p outAmount = none
    | _ => True
  | _ => True

/-! ## The invariant -/

/-- Past its quote, the loop works on a position without an unresolved submission. -/
def LiveLoop.clear (s : LiveLoop) : Visit → Prop
  | .marking p outAmount => s.unresolved p.positionId → liveReason p outAmount = none
  | .claiming p _ _ _ | .exitQuoting p _ | .executing p _ _ => ¬ s.unresolved p.positionId
  | _ => True

theorem resume_clear {s : LiveLoop} {ret : Ret} {visit : Visit} (h : s.clear visit) :
    s.clear (visit.resume ret) := by
  cases visit with
  | idle | quoting | exitQuoting | executing => exact h
  | recording | settling | releasing => trivial
  | marking p outAmount =>
    simp only [Visit.resume]
    split
    · trivial
    · rename_i hreason
      intro hun
      rw [h hun] at hreason
      cases hreason
  | claiming p =>
    simp only [Visit.resume]
    split
    · trivial
    · split_ifs
      · exact h
      · exact h

theorem quiet_step {s s' : LiveLoop} {a : LiveAct} (hs : NeverResubmits s.outcomes)
    (hclear : s.clear s.visit) (hok : staysQuiet s a) (h : s.step a = some s') :
    NeverResubmits s'.outcomes ∧ s'.clear s'.visit := by
  cases a with
  | poll =>
    simp only [LiveLoop.step] at h
    split at h <;> cases h
    exact ⟨hs, hclear⟩
  | next =>
    simp only [LiveLoop.step] at h
    split at h <;> cases h
    exact ⟨hs, trivial⟩
  | quoteArrives outAmount =>
    simp only [LiveLoop.step] at h
    split_ifs at h
    obtain ⟨visit, hv, rfl⟩ := Option.map_eq_some_iff.1 h
    refine ⟨hs, ?_⟩
    simp only [staysQuiet] at hok
    cases hcur : s.visit with
    | quoting p =>
      rw [hcur] at hv hok
      cases hv
      show s.clear (if p.remainingCostLamports = 0 then .idle else .marking p outAmount)
      split_ifs
      · trivial
      · exact hok
    | exitQuoting p exit =>
      rw [hcur] at hv hclear
      cases hv
      exact hclear
    | idle | marking | claiming | executing | recording | settling | releasing =>
      rw [hcur] at hv; cases hv
  | executes input =>
    simp only [LiveLoop.step] at h
    split at h
    · rename_i p exit exitOutAmount hcur
      rw [hcur] at hclear
      split at h <;> cases h
      · exact ⟨hs, trivial⟩
      · refine ⟨fun positionId => ?_, trivial⟩
        rw [neverWhilePending_concat]
        refine ⟨hs positionId, ?_⟩
        rintro ⟨rfl, -⟩
        exact hclear
    · cases h
  | writes freshId now =>
    obtain ⟨op, -, h⟩ := Option.bind_eq_some_iff.1 h
    obtain ⟨world, -, rfl⟩ := Option.map_eq_some_iff.1 h
    exact ⟨hs, resume_clear hclear⟩
  | raises =>
    obtain ⟨visit, hv, rfl⟩ := Option.map_eq_some_iff.1 h
    refine ⟨hs, ?_⟩
    generalize s.visit = cur at hv
    cases cur <;> cases hv <;> trivial
  | other op =>
    simp only [LiveLoop.step] at h
    split_ifs at h
    obtain ⟨world, -, rfl⟩ := Option.map_eq_some_iff.1 h
    exact ⟨hs, hclear⟩

/-- No resubmission. In every run of the live loop in which no quote of a position with an
unresolved submission triggers an exit, no further sell transaction of it is submitted. -/
theorem never_resubmits {acts : List LiveAct} {s : LiveLoop}
    (h : Run LiveLoop.step staysQuiet LiveLoop.start acts s) : NeverResubmits s.outcomes := by
  have hstep : ∀ s a s', (NeverResubmits s.outcomes ∧ s.clear s.visit) → staysQuiet s a →
      s.step a = some s' → NeverResubmits s'.outcomes ∧ s'.clear s'.visit :=
    fun _ _ _ hs hok h => quiet_step hs.1 hs.2 hok h
  exact (h.invariant hstep ⟨fun _ => neverWhilePending_nil, trivial⟩).1

instance (positionId : Uuid) (x : Uuid × ExecutionResult) : Decidable (leftUnknown positionId x) :=
  inferInstanceAs (Decidable (_ ∧ _))

instance (s : LiveLoop) (positionId : Uuid) : Decidable (s.unresolved positionId) :=
  decidable_of_iff (∃ x ∈ s.outcomes, leftUnknown positionId x)
    (pending_iff_of_never_closed fun _ => id).symm

instance (s : LiveLoop) : (a : LiveAct) → Decidable (staysQuiet s a)
  | .quoteArrives outAmount => by
    unfold staysQuiet
    cases s.visit <;> infer_instance
  | .poll | .next | .executes _ | .writes .. | .raises | .other _ => .isTrue trivial

/-- A swap that is submitted and then polled until the deadline. -/
def unconfirmed : SellInput :=
  ⟨true, .ok (), .ok 10, .ok 800,
    ⟨.ok 1, .ok "tx", .ok "signature", .ok "bundle", [.pending], .instant 0, .instant 0, .instant 0, .instant 0⟩⟩

/-- The stop-loss of a position, submitted and not confirmed. -/
def unknownExit : List LiveAct :=
  [.other (.buy sampleBuy ⟨0⟩ 0), .poll, .next, .quoteArrives 800, .writes ⟨0⟩ 1, .writes ⟨1⟩ 2,
    .executes unconfirmed, .writes ⟨0⟩ 3, .writes ⟨0⟩ 4]

/-- After the unconfirmed stop-loss the price recovers, and nothing more is submitted. -/
theorem never_resubmits_recovers : ∃ s : LiveLoop, s.outcomes.map (fun x => x.2.status) = [.unknown] ∧
    NeverResubmits s.outcomes := by
  obtain ⟨s, hrun, hs⟩ : ∃ s, Run LiveLoop.step staysQuiet LiveLoop.start
      (unknownExit ++ [.poll, .next, .quoteArrives 1100, .writes ⟨0⟩ 5]) s ∧
      s.outcomes.map (fun x => x.2.status) = [.unknown] := Run.exists_of_any (by decide +kernel)
  exact ⟨s, hs, never_resubmits hrun⟩

/-- The claim is released after the `UNKNOWN` result, so the next poll at a stop-loss price submits
a second transaction. -/
theorem unknown_resubmitted : ¬ ∀ (acts : List LiveAct) (s : LiveLoop),
    Run LiveLoop.step Run.anyStep LiveLoop.start acts s → NeverResubmits s.outcomes := by
  intro hall
  obtain ⟨s, hrun, hs⟩ : ∃ s, Run LiveLoop.step Run.anyStep LiveLoop.start
      (unknownExit ++ [.poll, .next, .quoteArrives 800, .writes ⟨0⟩ 5, .writes ⟨2⟩ 6,
        .executes unconfirmed]) s ∧
      s.outcomes.map (fun x => (x.1, x.2.submitted, x.2.status)) =
        [(⟨0⟩, true, .unknown), (⟨0⟩, true, .unknown)] := Run.exists_of_any (by decide +kernel)
  simp only [List.map_eq_cons_iff, List.map_eq_nil_iff, Prod.mk.injEq] at hs
  obtain ⟨first, _, hlog, ⟨hid, -, hstatus⟩, second, _, rfl, ⟨hid', hsub, -⟩, rfl⟩ := hs
  exact hall _ s hrun ⟨0⟩ [first] second [] hlog ⟨hid', hsub⟩
    ⟨[], first, [], rfl, ⟨hid, hstatus⟩, fun _ hy => absurd hy List.not_mem_nil⟩

end Aibot.Live
