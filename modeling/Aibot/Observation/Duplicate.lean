/-
Two flows of the monitor for one observation: a signal that is delivered twice. Each flow discovers
the candidate, decides it, opens the paper experiment, and ends it when something fails on the way.
The end does not look at what the row has become; as long as it does not find a decided row, what a
decision started is not undone.
-/
import Aibot.Lib.Run
import Aibot.Observation.Effect

namespace Aibot.Observation

open Aibot.Risk

/-! ## The flows -/

/-- Where a flow of `process_paper_signal` is. -/
inductive FlowPhase
  | waiting
  /-- The candidate is discovered; the analysis and the quotes are under way. -/
  | analysing
  /-- The decision is recorded, and is not promoted. -/
  | observed
  /-- The decision is promoted, and the paper buy is under way. -/
  | approved
  | bought (positionId : Uuid)
  /-- The row is marked OPENED; the flow has its last calls to make. -/
  | opened
  | finished (hasOpened : Bool)
  deriving DecidableEq, Repr

namespace FlowPhase

/-- The flow records no decision any more. -/
def pastDeciding : FlowPhase → Bool
  | .waiting | .analysing => false
  | _ => true

/-- The flow has marked the row OPENED, and has not ended the candidate. -/
def hasOpened : FlowPhase → Bool
  | .opened | .finished true => true
  | _ => false

/-- The decision of the flow was promoted to a paper experiment. -/
def promoted : FlowPhase → Bool
  | .approved | .bought _ => true
  | phase => phase.hasOpened

/-- The flow can still call `finalize_candidate_without_quote`. -/
def canFinalize : FlowPhase → Bool
  | .waiting | .finished _ => false
  | _ => true

end FlowPhase

/-- The ledger and the two flows. -/
structure Deliveries where
  rows : List Row
  flow : Bool → FlowPhase

/-- Two deliveries on a ledger that has no row of the signal yet. -/
def Deliveries.start (rows : List Row) : Deliveries := ⟨rows, fun _ => .waiting⟩

inductive DeliveryAct
  | discover (flow : Bool) (request : DiscoveryRequest) (now : Int)
  | decide (flow : Bool) (request : DecisionRequest) (now : Int) (paperMode : Bool)
  | finalize (flow : Bool) (request : FinalizeRequest) (now : Int)
  /-- `record_paper_buy` returns. -/
  | buy (flow : Bool) (positionId : Uuid)
  /-- `record_paper_buy` refuses, and the row is marked so. -/
  | skip (flow : Bool) (capacityReached : Bool)
  | opens (flow : Bool)
  /-- The flow returns or dies. -/
  | ends (flow : Bool)
  /-- Another task or process writes the ledger. -/
  | other (op : ObservationOp)
  | markers (snapshots : List Row)

/-- The arguments with which a flow records a decision: an approved one has both quotes. -/
def DecisionRequest.ofFlow (r : DecisionRequest) : Prop :=
  r.valid ∧ (r.quoteStatus = "EXECUTABLE" ∨ r.quoteStatus = "ENTRY_ONLY" ∧ r.decisionStatus = .rejected)

instance (r : DecisionRequest) : Decidable r.ofFlow := inferInstanceAs (Decidable (_ ∧ (_ ∨ _)))

/-- A call of another task: of the observation it only closes the experiment, or takes samples. -/
def ObservationOp.foreign (id : ObservationId) : ObservationOp → Prop
  | .discovery r _ => r.observationId ≠ id
  | .decision r _ => r.observationId ≠ id
  | .finalize r _ => r.observationId ≠ id
  | .mark id' status _ => id' ≠ id ∨ status = .closed
  | _ => True

instance (id : ObservationId) : (op : ObservationOp) → Decidable (op.foreign id)
  | .discovery .. | .decision .. | .finalize .. => inferInstanceAs (Decidable (_ ≠ _))
  | .mark .. => inferInstanceAs (Decidable (_ ∨ _))
  | .sampleAttempt .. | .sampleBatch .. | .reconcile .. => .isTrue trivial

/-- The ledger after a call, with a flow at its next phase. -/
def Deliveries.write (s : Deliveries) (op : ObservationOp) (flow : Bool) (phase : FlowPhase) : Deliveries :=
  ⟨(op.write s.rows).rows, Function.update s.flow flow phase⟩

/-- A flow at its next phase, without a call. -/
def Deliveries.move (s : Deliveries) (flow : Bool) (phase : FlowPhase) : Deliveries :=
  { s with flow := Function.update s.flow flow phase }

/-- The phase after `record_observation_decision`. -/
def decidedPhase (r : DecisionRequest) (now : Int) (paperMode : Bool) (rows : List Row) : FlowPhase :=
  match recordObservationDecision r now rows with
  | .ok (decision, _) =>
    if r.decisionStatus = .approved ∧ paperMode ∧ decision.created then .approved else .observed
  | .error _ => .analysing

def Deliveries.step (id : ObservationId) (s : Deliveries) : DeliveryAct → Option Deliveries
  | .discover flow r now =>
    if s.flow flow = .waiting ∧ r.observationId = id then
      some (s.write (.discovery r now) flow .analysing)
    else none
  | .decide flow r now paperMode =>
    if s.flow flow = .analysing ∧ r.observationId = id ∧ r.ofFlow then
      some (s.write (.decision r now) flow (decidedPhase r now paperMode s.rows))
    else none
  | .finalize flow r now =>
    if (s.flow flow).canFinalize ∧ r.observationId = id ∧ r.valid then
      some (s.write (.finalize r now) flow (.finished false))
    else none
  | .buy flow positionId =>
    if s.flow flow = .approved then some (s.move flow (.bought positionId)) else none
  | .skip flow capacityReached =>
    if s.flow flow = .approved then
      some (s.write (.mark id (if capacityReached then .skippedCapacity else .failed) none) flow
        (.finished false))
    else none
  | .opens flow =>
    match s.flow flow with
    | .bought positionId => some (s.write (.mark id .opened (some positionId)) flow .opened)
    | _ => none
  | .ends flow => some (s.move flow (.finished (s.flow flow).hasOpened))
  | .other op => if op.foreign id then some { s with rows := (op.write s.rows).rows } else none
  | .markers snapshots => some { s with rows := (persistArchiveMarkers snapshots s.rows).rows }

/-! ## What must not be undone -/

/-- A row that is executable and waits for samples, or whose experiment is open. -/
def Row.decided (row : Row) : Prop :=
  row.quoteStatus = "EXECUTABLE" ∧ row.status = .pending ∨ row.paperExperimentStatus = .opened

instance (row : Row) : Decidable row.decided := inferInstanceAs (Decidable (_ ∨ _))

/-- The act ends a candidate without a quote. -/
def DeliveryAct.isFinalize : DeliveryAct → Bool
  | .finalize .. => true
  | _ => false

/-- A step keeps a decided row: it is still there with its samples, and it is not ended as a
candidate without a quote. -/
def KeepsDecided (id : ObservationId) (s : Deliveries) (a : DeliveryAct) (s' : Deliveries) : Prop :=
  ∀ row, findRow s.rows id = some row → row.decided → ∃ row', findRow s'.rows id = some row' ∧
    row.samples <+: row'.samples ∧
    (a.isFinalize = true → ¬ (row'.status = .complete ∧ row'.paperExperimentStatus = .notEligible))

/-- No end of a candidate finds a decided row, no discovery makes a new row while the other flow has
a promoted decision, and a decided row carries no archive marker. -/
def sparesDecided (id : ObservationId) (s : Deliveries) (a : DeliveryAct) : Prop :=
  (∀ row, findRow s.rows id = some row → row.decided → row.archived = false) ∧
  match a with
  | .discover flow _ _ => findRow s.rows id ≠ none ∨ (s.flow !flow).promoted = false
  | .finalize _ _ _ => ∀ row, findRow s.rows id = some row → ¬ row.decided
  | _ => True

/-! ## The invariant -/

structure DeliveryFlowInv (id : ObservationId) (s : Deliveries) : Prop where
  unique : UniqueIds s.rows
  /-- An open experiment was opened by one of the flows. -/
  opened : ∀ row, findRow s.rows id = some row → row.paperExperimentStatus = .opened →
    ∃ flow, (s.flow flow).hasOpened = true
  /-- Beside a flow with a promoted decision, the row is executable as long as the other can decide. -/
  executable : ∀ flow row, (s.flow flow).promoted = true → findRow s.rows id = some row →
    row.quoteStatus = "EXECUTABLE" ∨ (s.flow !flow).pastDeciding = true

section Step

variable {id : ObservationId} {s s' : Deliveries}

theorem hasOpened_promoted {phase : FlowPhase} (h : phase.hasOpened = true) : phase.promoted = true := by
  cases phase with
  | finished hasOpened => cases hasOpened <;> first | rfl | cases h
  | opened => rfl
  | _ => cases h

theorem promoted_pastDeciding {phase : FlowPhase} (h : phase.promoted = true) : phase.pastDeciding = true := by
  cases phase <;> first | rfl | cases h

/-- An open row is executable while a flow can still decide. -/
theorem opened_executable (hs : DeliveryFlowInv id s) {row : Row} (hrow : findRow s.rows id = some row)
    (hopened : row.paperExperimentStatus = .opened) {flow : Bool}
    (hflow : (s.flow flow).pastDeciding = false) : row.quoteStatus = "EXECUTABLE" := by
  obtain ⟨g, hg⟩ := hs.opened row hrow hopened
  have hpromoted := hasOpened_promoted hg
  -- the flow that opened it is the other one
  have hne : g ≠ flow := by
    rintro rfl
    rw [promoted_pastDeciding hpromoted] at hflow
    cases hflow
  rcases hs.executable g row hpromoted hrow with hq | hpast
  · exact hq
  · rw [Bool.eq_not.2 hne.symm] at hflow
    rw [hpast] at hflow
    cases hflow

theorem unique_write (hs : DeliveryFlowInv id s) (op : ObservationOp) : UniqueIds (op.write s.rows).rows :=
  ((write_effect hs.unique op).unique hs.unique).sublist ((Write.rows_sublist _).map _)

/-- Expiry changes neither the quote nor the experiment of a row. -/
theorem Aged.experiment {a b : Row} (h : Aged a b) :
    b.quoteStatus = a.quoteStatus ∧ b.paperExperimentStatus = a.paperExperimentStatus := by
  cases h <;> exact ⟨rfl, rfl⟩

/-- What another task leaves of the observation: its quote where that is executable, its experiment
where that is open afterwards, and its samples. -/
theorem foreign_edit {op : ObservationOp} (hop : op.foreign id) {row row' : Row}
    (hid : row.observationId = id) (hedit : Edit s.rows op row row') :
    (row.quoteStatus = "EXECUTABLE" → row'.quoteStatus = "EXECUTABLE") ∧
      (row'.paperExperimentStatus = .opened → row.paperExperimentStatus = .opened) ∧
      row.samples <+: row'.samples := by
  cases hedit with
  | same => exact ⟨fun h => h, fun h => h, List.prefix_rfl⟩
  | decided hr => exact absurd (hr.symm.trans hid) hop
  | finalized hr => exact absurd (hr.symm.trans hid) hop
  | @marked id' status positionId _ hr =>
    refine ⟨fun h => h, fun hopened => ?_, List.prefix_rfl⟩
    rcases hop with hne | hclosed
    · exact absurd (hr.symm.trans hid) hne
    · rw [hclosed] at hopened
      cases hopened
  | attempted => exact ⟨fun h => h, fun h => h, List.prefix_rfl⟩
  | sampled h =>
    obtain ⟨-, -, hq, hp, -, hsamples⟩ := h.keeps
    exact ⟨fun h => hq.trans h, fun h => hp.symm.trans h, hsamples⟩
  | @reconciled now grace _ h =>
    refine ⟨fun hq => ?_, fun hopened => ?_, List.prefix_rfl⟩
    · unfold Row.interrupted at h
      simp [hq] at h
    · cases hopened

/-! ## Markers and decisions -/

theorem find_markers (hu : UniqueIds s.rows) (snapshots : List Row) {row'' : Row}
    (h : findRow (persistArchiveMarkers snapshots s.rows).rows id = some row'') :
    ∃ row, findRow s.rows id = some row ∧ ∃ archivedAt, row'' = { row with archivedAt := archivedAt } := by
  obtain ⟨hmem, rfl⟩ := findRow_some h
  obtain ⟨markers, htouched⟩ := persist_map snapshots s.rows
  have hmem := (Write.rows_sublist _).subset hmem
  rw [htouched] at hmem
  obtain ⟨row, hrow, rfl⟩ := List.mem_map.1 hmem
  obtain ⟨archivedAt, he⟩ := withMarker_row markers row
  refine ⟨row, ?_, archivedAt, he⟩
  rw [he]
  exact findRow_mem hu hrow

/-- A row that waits, or whose experiment is open, stays when markers are persisted. -/
theorem markers_find (hu : UniqueIds s.rows) (snapshots : List Row) {row : Row}
    (hrow : findRow s.rows id = some row) (hc : row.completed = false) :
    ∃ row', findRow (persistArchiveMarkers snapshots s.rows).rows id = some row' ∧
      row'.samples = row.samples := by
  obtain ⟨hmem, rfl⟩ := findRow_some hrow
  obtain ⟨markers, htouched⟩ := persist_map snapshots s.rows
  obtain ⟨archivedAt, he⟩ := withMarker_row markers row
  have hmem' : row.withMarker markers ∈ (persistArchiveMarkers snapshots s.rows).touched := by
    rw [htouched]
    exact List.mem_map_of_mem hmem
  have hu' : UniqueIds (persistArchiveMarkers snapshots s.rows).rows := by
    have hids := map_persist snapshots s.rows
    unfold UniqueIds at hu
    rw [← hids] at hu
    exact hu.sublist ((Write.rows_sublist _).map _)
  rcases Write.saved_or_evicted hmem' with hsaved | hevicted
  · refine ⟨row.withMarker markers, ?_, by rw [he]⟩
    rw [← (withMarker_keeps markers row).1]
    exact findRow_mem hu' hsaved
  · obtain ⟨-, hcompleted, -⟩ := Write.evicted_completed hevicted
    rw [he] at hcompleted
    exact absurd (hc.symm.trans hcompleted) Bool.false_ne_true

/-- A decision that makes or replaces its row leaves its quote status on it. -/
theorem created_quote {rows : List Row} (hu : UniqueIds rows) {r : DecisionRequest} {now : Int}
    {decision : ObservationDecision} {w : Write}
    (h : recordObservationDecision r now rows = .ok (decision, w)) (hc : decision.created = true) {row : Row}
    (hrow : row ∈ w.touched) (hid : row.observationId = r.observationId) :
    row.quoteStatus = normalizedQuoteStatus r.quoteStatus := by
  unfold recordObservationDecision at h
  dsimp only at h
  split_ifs at h
  all_goals split at h
  · obtain ⟨rfl, -⟩ := Prod.mk.inj (Except.ok.inj h)
    cases hc
  · cases h
  · obtain ⟨rfl, -⟩ := Prod.mk.inj (Except.ok.inj h)
    cases hc
  obtain ⟨-, rfl⟩ := Prod.mk.inj (Except.ok.inj h)
  rw [Write.touched_retain] at hrow
  -- before the expiry the row is the one of the decision
  have hexpired : ∀ saved : List Row, (∀ x ∈ saved, x.observationId = r.observationId →
      x.quoteStatus = normalizedQuoteStatus r.quoteStatus) → row ∈ expireObservationBacklog now saved →
      row.quoteStatus = normalizedQuoteStatus r.quoteStatus := by
    intro saved hsaved hrow
    rcases mem_expire hrow with hmem | ⟨x, hx, -, rfl⟩
    · exact hsaved row hmem hid
    · exact hsaved x hx hid
  cases hf : findRow rows r.observationId with
  | none =>
    rw [hf] at hrow
    dsimp only at hrow
    refine hexpired _ (fun x hx hxid => ?_) hrow
    rcases List.mem_append.1 hx with hx | hx
    · exact absurd (List.mem_map.2 ⟨x, hx, hxid⟩) (findRow_none.1 hf)
    · rw [List.mem_singleton.1 hx]
      rfl
  | some existing =>
    rw [hf] at hrow
    dsimp only at hrow
    refine hexpired _ (fun x hx hxid => ?_) hrow
    rw [modifyRow_eq_map hu] at hx
    obtain ⟨y, -, rfl⟩ := List.mem_map.1 hx
    split_ifs at hxid ⊢ with hy
    · rfl
    · exact absurd hxid hy

/-- A valid decision takes its flow past deciding. -/
theorem decidedPhase_past {r : DecisionRequest} (hr : r.valid) (now : Int) (paperMode : Bool) (rows : List Row) :
    (decidedPhase r now paperMode rows).pastDeciding = true := by
  obtain ⟨hcost, hamount, hstatus⟩ := hr
  have hok : ∃ x, recordObservationDecision r now rows = .ok x := by
    unfold recordObservationDecision
    dsimp only
    rw [if_neg (by omega)]
    split
    · exact ⟨_, rfl⟩
    · rw [if_neg (by tauto)]
      exact ⟨_, rfl⟩
  obtain ⟨x, hx⟩ := hok
  unfold decidedPhase
  rw [hx]
  dsimp only
  split_ifs <;> rfl

/-- A promoted decision has made its row, executable. -/
theorem promoted_executable (hs : DeliveryFlowInv id s) {r : DecisionRequest} {now : Int} {paperMode : Bool}
    (hr : r.ofFlow) (hid : r.observationId = id)
    (hp : (decidedPhase r now paperMode s.rows).promoted = true) {row : Row}
    (hrow : findRow ((ObservationOp.decision r now).write s.rows).rows id = some row) :
    row.quoteStatus = "EXECUTABLE" := by
  unfold decidedPhase at hp
  cases hdec : recordObservationDecision r now s.rows with
  | error _ => rw [hdec] at hp; cases hp
  | ok x =>
    obtain ⟨decision, w⟩ := x
    rw [hdec] at hp
    dsimp only at hp
    split_ifs at hp with happroved
    · obtain ⟨hstatus, -, hcreated⟩ := happroved
      have hquote : r.quoteStatus = "EXECUTABLE" := by
        rcases hr.2 with hq | ⟨-, hrejected⟩
        · exact hq
        · rw [hstatus] at hrejected
          cases hrejected
      simp only [ObservationOp.write, hdec] at hrow
      obtain ⟨hmem, hrowid⟩ := findRow_some hrow
      have hmem : row ∈ w.touched := (Write.rows_sublist _).subset hmem
      rw [created_quote hs.unique hdec hcreated hmem (hrowid.trans hid.symm), hquote]
      decide +kernel
    · cases hp

end Step

end Aibot.Observation
