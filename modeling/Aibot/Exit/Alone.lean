/-
One manager alone: an evaluation whose flow has the ledger to itself, run from the read of the
position to its end. Every stop of the flow is still a commit or a quote of its own; only nobody
else moves in between.
-/
import Aibot.Exit.Refine

namespace Aibot.Exit

open Aibot.Risk Aibot.Store

/-! ## The evaluation -/

/-- The `outAmount` of a quote: `jupiter_quote` raises where it is not positive. -/
abbrev Quote := { outAmount : Int // 0 < outAmount }

/-- What an evaluation meets: its detection quote, the quote of its take-profit, should it take one,
the exit id it would draw, and the clock at its writes. -/
structure Answers where
  detection : Except String Quote
  exit : Except String Quote
  exitId : Uuid
  markedAt : Int
  soldAt : Int
  failedAt : Int
  /-- The sales the snapshot counts: history, which no decision reads. -/
  sales : Nat

/-- The clock reading of the flow's next write. -/
def Answers.now (a : Answers) : Flow → Int
  | .marking .. => a.markedAt
  | .selling .. => a.soldAt
  | _ => a.failedAt

/-- Where the flow goes with a quote. -/
def Flow.answered (flow : Flow) : Except String Quote → Option Flow
  | .ok quote => flow.quoted quote
  | .error error => flow.quoteRaises error

/-- The next stop of the flow: it commits its ledger call, or gets its quote. -/
def Flow.next (a : Answers) (flow : Flow) (ledger : Ledger) : Option (Flow × Ledger) :=
  match flow.request a.exitId (a.now flow) with
  | some op => some (flow.resume (op.run ledger).1, (op.run ledger).2)
  | none =>
    match flow with
    | .evaluating _ => (flow.answered a.detection).map (·, ledger)
    | .quoting .. => (flow.answered a.exit).map (·, ledger)
    | _ => none

/-- At most this many stops are left. -/
def Flow.stops : Flow → Nat
  | .evaluating _ => 7
  | .marking .. => 6
  | .claiming _ => 5
  | .quoting .. => 4
  | .selling .. => 3
  | .releasing .. => 2
  | .failing .. => 1
  | .idle | .finished => 0

/-- The ledger after so many stops. -/
def Flow.finish (a : Answers) : Nat → Flow → Ledger → Ledger
  | 0, _, ledger => ledger
  | n + 1, flow, ledger =>
    match flow.next a ledger with
    | none => ledger
    | some (flow', ledger') => Flow.finish a n flow' ledger'

/-- The ledger when the flow is at its end. -/
def Flow.rest (a : Answers) (flow : Flow) (ledger : Ledger) : Ledger := flow.finish a flow.stops ledger

/-- `evaluate_paper_position`, with nobody else about. -/
def evaluatePaperPosition (a : Answers) (position : Position) (ledger : Ledger) : Ledger :=
  if skips position then ledger else Flow.rest a (.evaluating ⟨position.mint, position, a.sales⟩) ledger

/-- The loop's evaluation of the position of `mint`, while it is open. -/
def evaluateOpen (a : Answers) (mint : Mint) (ledger : Ledger) : Ledger :=
  match ledger.position? mint with
  | none => ledger
  | some position => evaluatePaperPosition a position ledger

/-! ## Every evaluation ends -/

theorem resume_stops {flow : Flow} {exitId : Uuid} {now : Int} {op : Op}
    (h : flow.request exitId now = some op) (ret : Ret) : (flow.resume ret).stops < flow.stops := by
  cases flow with
  | idle | evaluating | quoting | finished => cases h
  | failing => exact Nat.zero_lt_one
  | marking snapshot value =>
    simp only [Flow.resume]
    cases exitPlan? snapshot value with
    | none => simp [Flow.stops]
    | some plan => simp [Flow.stops]
  | claiming plan =>
    simp only [Flow.resume]
    split
    · simp [Flow.stops]
    · unfold Plan.claimed
      simp only
      split_ifs
      · simp [Flow.stops]
      · split
        · simp [Flow.stops]
        · split_ifs
          all_goals simp [Flow.stops]
  | selling plan exitId amount proceeds =>
    simp only [Flow.resume]
    split_ifs
    all_goals simp [Flow.stops]
  | releasing plan exitId failure =>
    cases failure with
    | none => simp [Flow.resume, Flow.stops]
    | some error => simp [Flow.resume, Flow.stops]

theorem next_stops {a : Answers} {flow flow' : Flow} {ledger ledger' : Ledger}
    (h : flow.next a ledger = some (flow', ledger')) : flow'.stops < flow.stops := by
  unfold Flow.next at h
  split at h
  · rename_i op hop
    cases h
    exact resume_stops hop _
  · cases flow with
    | evaluating snapshot =>
      obtain ⟨x, hx, h⟩ := Option.map_eq_some_iff.1 h
      cases h
      cases hd : a.detection
      all_goals
        rw [hd] at hx
        cases hx
        simp [Flow.stops]
    | quoting plan exitId amount =>
      obtain ⟨x, hx, h⟩ := Option.map_eq_some_iff.1 h
      cases h
      cases he : a.exit
      all_goals
        rw [he] at hx
        cases hx
        simp [Flow.stops]
    | idle | marking | claiming | selling | releasing | failing | finished => cases h

/-- More stops than are left change nothing. -/
theorem finish_eq_rest {a : Answers} : ∀ {n : Nat} {flow : Flow} {ledger : Ledger}, flow.stops ≤ n →
    flow.finish a n ledger = flow.rest a ledger := by
  have hall : ∀ (n m : Nat) (flow : Flow) (ledger : Ledger), flow.stops ≤ n → flow.stops ≤ m →
      flow.finish a n ledger = flow.finish a m ledger := by
    intro n
    induction n with
    | zero =>
      intro m flow ledger hn hm
      cases m with
      | zero => rfl
      | succ m =>
        unfold Flow.finish
        cases hnext : flow.next a ledger with
        | none => rfl
        | some x =>
          have := next_stops hnext
          omega
    | succ n ih =>
      intro m flow ledger hn hm
      cases m with
      | zero =>
        unfold Flow.finish
        cases hnext : flow.next a ledger with
        | none => rfl
        | some x =>
          have := next_stops hnext
          omega
      | succ m =>
        unfold Flow.finish
        cases hnext : flow.next a ledger with
        | none => rfl
        | some x =>
          have hlt := next_stops hnext
          exact ih m x.1 x.2 (by omega) (by omega)
  intro n flow ledger h
  exact hall n flow.stops flow ledger h le_rfl

/-- An evaluation goes on from stop to stop. -/
theorem rest_next {a : Answers} {flow flow' : Flow} {ledger ledger' : Ledger}
    (h : flow.next a ledger = some (flow', ledger')) : flow.rest a ledger = flow'.rest a ledger' := by
  have hlt := next_stops h
  have hmore : flow.finish a (flow.stops + 1) ledger = flow.rest a ledger := finish_eq_rest (by omega)
  rw [← hmore]
  unfold Flow.finish
  simp only [h]
  exact finish_eq_rest (by omega)

theorem rest_finished {a : Answers} {flow : Flow} {ledger : Ledger} (h : flow.next a ledger = none) :
    flow.rest a ledger = ledger := by
  have hmore : flow.finish a (flow.stops + 1) ledger = flow.rest a ledger := finish_eq_rest (by omega)
  rw [← hmore]
  unfold Flow.finish
  simp only [h]

/-- The answers agree on what a flow with so many stops left can still ask. -/
structure Answers.Agree (n : Nat) (a b : Answers) : Prop where
  detection : 7 ≤ n → a.detection = b.detection
  markedAt : 6 ≤ n → a.markedAt = b.markedAt
  exitId : 5 ≤ n → a.exitId = b.exitId
  exit : 4 ≤ n → a.exit = b.exit
  soldAt : 3 ≤ n → a.soldAt = b.soldAt
  failedAt : a.failedAt = b.failedAt

theorem Answers.Agree.mono {a b : Answers} {m n : Nat} (h : Answers.Agree n a b) (hle : m ≤ n) :
    Answers.Agree m a b := by
  constructor
  · intro hm; exact h.detection (by omega)
  · intro hm; exact h.markedAt (by omega)
  · intro hm; exact h.exitId (by omega)
  · intro hm; exact h.exit (by omega)
  · intro hm; exact h.soldAt (by omega)
  · exact h.failedAt

theorem next_congr {a b : Answers} {flow : Flow} (h : Answers.Agree flow.stops a b) (ledger : Ledger) :
    flow.next a ledger = flow.next b ledger := by
  cases flow with
  | idle | finished => rfl
  | evaluating => simp only [Flow.next, Flow.request, h.detection (by simp [Flow.stops])]
  | marking => simp only [Flow.next, Flow.request, Answers.now, h.markedAt (by simp [Flow.stops])]
  | claiming => simp only [Flow.next, Flow.request, h.exitId (by simp [Flow.stops])]
  | quoting => simp only [Flow.next, Flow.request, h.exit (by simp [Flow.stops])]
  | selling => simp only [Flow.next, Flow.request, Answers.now, h.soldAt (by simp [Flow.stops])]
  | releasing => simp only [Flow.next, Flow.request]
  | failing => simp only [Flow.next, Flow.request, Answers.now, h.failedAt]

theorem rest_congr {a b : Answers} {flow : Flow} (h : Answers.Agree flow.stops a b) (ledger : Ledger) :
    flow.rest a ledger = flow.rest b ledger := by
  induction hn : flow.stops using Nat.strong_induction_on generalizing flow ledger with
  | _ n ih =>
    have hnext := next_congr h ledger
    cases ha : flow.next a ledger with
    | none => rw [rest_finished ha, rest_finished (hnext.symm.trans ha)]
    | some x =>
      have hlt := next_stops ha
      rw [rest_next ha, rest_next (hnext.symm.trans ha)]
      exact ih x.1.stops (by omega) (h.mono (by omega)) x.2 rfl

/-! ## The flows of one manager -/

/-- Nobody but the flow `f` moves, and its process lives on. -/
def alone (f : Nat) (_ : Exits) : Act → Prop
  | .quoteArrives g _ | .quoteRaises g _ | .writes g _ _ => g = f
  | _ => False

/-- From here on the flow, alone, leads to `last`, for some answers. -/
def Flow.LeadsTo (flow : Flow) (ledger last : Ledger) : Prop := ∃ a : Answers, flow.rest a ledger = last

/-- A flow that gets an answer to its quote goes on as it would have from there. -/
theorem leadsTo_quote {flow flow' : Flow} {ledger last : Ledger} {answer : Except String Quote}
    (hmove : flow.answered answer = some flow') (h : flow'.LeadsTo ledger last) : flow.LeadsTo ledger last := by
  obtain ⟨a, ha⟩ := h
  have hstep : ∀ b : Answers, flow.next b ledger = some (flow', ledger) →
      Answers.Agree flow'.stops b a → flow.LeadsTo ledger last := by
    intro b hnext hagree
    exact ⟨b, by rw [rest_next hnext, rest_congr hagree, ha]⟩
  cases flow with
  | evaluating snapshot =>
    refine hstep { a with detection := answer } ?_ ?_
    · simp only [Flow.next, Flow.request, hmove, Option.map_some]
    · -- what follows does not ask for this quote again
      have hlt : flow'.stops < 7 := by
        cases answer
        all_goals
          cases hmove
          simp [Flow.stops]
      constructor
      all_goals simp
      omega
  | quoting plan exitId amount =>
    refine hstep { a with exit := answer } ?_ ?_
    · simp only [Flow.next, Flow.request, hmove, Option.map_some]
    · have hlt : flow'.stops < 4 := by
        cases answer
        all_goals
          cases hmove
          simp [Flow.stops]
      constructor
      all_goals simp
      omega
  | idle | marking | claiming | selling | releasing | failing | finished =>
    cases answer
    all_goals cases hmove

/-- A flow that makes its ledger call goes on as it would have from there. -/
theorem leadsTo_write {flow : Flow} {ledger last : Ledger} {freshId : Uuid} {now : Int} {op : Op}
    (hop : flow.request freshId now = some op)
    (h : (flow.resume (op.run ledger).1).LeadsTo (op.run ledger).2 last) : flow.LeadsTo ledger last := by
  obtain ⟨a, ha⟩ := h
  have hlt := resume_stops hop (op.run ledger).1
  have hstep : ∀ b : Answers, flow.request b.exitId (b.now flow) = some op →
      Answers.Agree (flow.resume (op.run ledger).1).stops b a → flow.LeadsTo ledger last := by
    intro b hb hagree
    have hnext : flow.next b ledger = some (flow.resume (op.run ledger).1, (op.run ledger).2) := by
      unfold Flow.next
      rw [hb]
    exact ⟨b, by rw [rest_next hnext, rest_congr hagree, ha]⟩
  cases flow with
  | idle | evaluating | quoting | finished => cases hop
  | marking snapshot value =>
    refine hstep { a with markedAt := now } hop ?_
    have : (Flow.marking snapshot value).stops = 6 := rfl
    constructor
    all_goals simp
    omega
  | claiming plan =>
    refine hstep { a with exitId := freshId } hop ?_
    have : (Flow.claiming plan).stops = 5 := rfl
    constructor
    all_goals simp
    omega
  | selling plan exitId amount proceeds =>
    refine hstep { a with soldAt := now } hop ?_
    have : (Flow.selling plan exitId amount proceeds).stops = 3 := rfl
    constructor
    all_goals simp
    omega
  | releasing plan exitId failure =>
    refine hstep a hop ?_
    constructor
    all_goals simp
  | failing mint positionId error =>
    -- nothing is left but this write
    cases hop
    exact ⟨{ a with failedAt := now }, ha⟩

/-- A finished flow is at its end. -/
theorem leadsTo_finished {flow : Flow} (h : flow.stops = 0) (ledger : Ledger) : flow.LeadsTo ledger ledger := by
  refine ⟨⟨.error "", .error "", ⟨0⟩, 0, 0, 0, 0⟩, ?_⟩
  unfold Flow.rest
  rw [h]
  rfl

/-- One step of a flow that is alone. -/
theorem alone_step {s s' : Exits} {f : Nat} {a : Act} {last : Ledger} (hok : alone f s a)
    (h : s.step a = some s') (hleads : (s'.flows f).LeadsTo s'.world.ledger last) :
    (s.flows f).LeadsTo s.world.ledger last := by
  cases a with
  | quoteArrives g outAmount =>
    cases hok
    simp only [Exits.step] at h
    split_ifs at h with hpos
    obtain ⟨flow, hq, rfl⟩ := Option.map_eq_some_iff.1 h
    rw [move_flows_self] at hleads
    exact @leadsTo_quote _ _ _ _ (.ok ⟨outAmount, hpos⟩) hq hleads
  | quoteRaises g error =>
    cases hok
    obtain ⟨flow, hq, rfl⟩ := Option.map_eq_some_iff.1 h
    rw [move_flows_self] at hleads
    exact @leadsTo_quote _ _ _ _ (.error error) hq hleads
  | writes g freshId now =>
    cases hok
    obtain ⟨op, hop, h⟩ := Option.bind_eq_some_iff.1 h
    obtain ⟨world, hw, rfl⟩ := Option.map_eq_some_iff.1 h
    obtain ⟨-, rfl⟩ := World.step_eq_some hw
    rw [wrote_flows_self] at hleads
    exact leadsTo_write hop hleads
  | evaluate | close | writeRaises | abandon | other => cases hok

theorem alone_run {s s' : Exits} {f : Nat} {acts : List Act} (h : Run Exits.step (alone f) s acts s')
    (hdone : s'.flows f = .finished) : (s.flows f).LeadsTo s.world.ledger s'.world.ledger := by
  induction h with
  | nil s => exact leadsTo_finished (by rw [hdone]; rfl) _
  | cons hok hstep _ ih => exact alone_step hok hstep (ih hdone)

/-- An evaluation that a flow makes from its read to its end, with nobody else moving in between, is
`evaluateOpen` with the answers it got. -/
theorem evaluation_alone {s t s' : Exits} {f : Nat} {mint : Mint} {acts : List Act}
    (hstart : s.step (.evaluate f mint) = some t) (hrun : Run Exits.step (alone f) t acts s')
    (hdone : s'.flows f = .finished) :
    ∃ a : Answers, s'.world.ledger = evaluateOpen a mint s.world.ledger := by
  obtain ⟨a, ha⟩ := alone_run hrun hdone
  simp only [Exits.step] at hstart
  split at hstart
  · rename_i p hidle hp
    cases hstart
    rw [move_flows_self] at ha
    refine ⟨{ a with sales := s.salesOf p.positionId }, ?_⟩
    rw [← ha]
    unfold evaluateOpen evaluatePaperPosition
    simp only [hp]
    split_ifs with hskip
    · rfl
    · refine rest_congr ?_ _
      constructor
      all_goals simp
  · cases hstart

end Aibot.Exit
