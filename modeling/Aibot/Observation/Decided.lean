/-
A decision on an observation is not undone by a second delivery of its signal, in the runs in which
no end of a candidate finds a decided row; the end does not check, so in other runs it is.
-/
import Aibot.Observation.Duplicate

namespace Aibot.Observation

open Aibot.Risk

section Step

variable {id : ObservationId} {s s' : Deliveries}

/-! ## Every step -/

theorem flow_self (f : Bool → FlowPhase) (flow : Bool) (phase : FlowPhase) :
    Function.update f flow phase flow = phase := Function.update_self ..

theorem flow_other (f : Bool → FlowPhase) {flow g : Bool} (phase : FlowPhase) (h : g ≠ flow) :
    Function.update f flow phase g = f g := Function.update_of_ne h ..

/-- A step that leaves the ledger, and takes a flow to a phase that says no less than the one before. -/
theorem move_flow (hs : DeliveryFlowInv id s) {flow : Bool} {phase : FlowPhase}
    (hopened : (s.flow flow).hasOpened = true → phase.hasOpened = true)
    (hpromoted : phase.promoted = true → (s.flow flow).promoted = true)
    (hpast : phase.pastDeciding = true) : DeliveryFlowInv id (s.move flow phase) := by
  refine ⟨hs.unique, fun row hrow ho => ?_, fun g row hg hrow => ?_⟩
  · obtain ⟨g, hg⟩ := hs.opened row hrow ho
    refine ⟨g, ?_⟩
    show (Function.update s.flow flow phase g).hasOpened = true
    by_cases hne : g = flow
    · subst hne
      rw [flow_self]
      exact hopened hg
    · rw [flow_other _ _ hne]
      exact hg
  · show _ ∨ (Function.update s.flow flow phase !g).pastDeciding = true
    replace hg : (Function.update s.flow flow phase g).promoted = true := hg
    by_cases hne : g = flow
    · subst hne
      rw [flow_self] at hg
      rw [flow_other _ _ (Bool.not_ne_self g)]
      exact hs.executable g row (hpromoted hg) hrow
    · rw [← Bool.eq_not.2 (Ne.symm hne), flow_self]
      exact .inr hpast

/-- A call of a flow. It says what the call leaves of an open experiment, and of the quote where the
flow is promoted after it. -/
theorem write_flow (hs : DeliveryFlowInv id s) {op : ObservationOp} {flow : Bool} {phase : FlowPhase}
    (hopened : ∀ row, findRow (op.write s.rows).rows id = some row → row.paperExperimentStatus = .opened →
      phase.hasOpened = true ∨ ∃ g, g ≠ flow ∧ (s.flow g).hasOpened = true)
    (hself : phase.promoted = true → ∀ row, findRow (op.write s.rows).rows id = some row →
      row.quoteStatus = "EXECUTABLE" ∨ (s.flow !flow).pastDeciding = true)
    (hother : phase.pastDeciding = true ∨ ((s.flow !flow).promoted = true →
      ∀ row, findRow (op.write s.rows).rows id = some row → row.quoteStatus = "EXECUTABLE")) :
    DeliveryFlowInv id (s.write op flow phase) := by
  refine ⟨unique_write hs op, fun row hrow ho => ?_, fun g row hg hrow => ?_⟩
  · rcases hopened row hrow ho with hp | ⟨g, hne, hg⟩
    · exact ⟨flow, by rw [show (s.write op flow phase).flow flow = phase from flow_self ..]; exact hp⟩
    · exact ⟨g, by rw [show (s.write op flow phase).flow g = s.flow g from flow_other _ _ hne]; exact hg⟩
  · show _ ∨ (Function.update s.flow flow phase !g).pastDeciding = true
    replace hg : (Function.update s.flow flow phase g).promoted = true := hg
    by_cases hne : g = flow
    · subst hne
      rw [flow_self] at hg
      rw [flow_other _ _ (Bool.not_ne_self g)]
      exact hself hg row hrow
    · have hg' : g = !flow := Bool.eq_not.2 hne
      subst hg'
      rw [Bool.not_not, flow_self]
      rw [flow_other _ _ (Bool.not_ne_self flow)] at hg
      exact hother.symm.imp_left fun h => h hg row hrow

/-- A row with an open experiment was opened by the other flow, where this one has not. -/
theorem other_opened (hs : DeliveryFlowInv id s) {row : Row} (hrow : findRow s.rows id = some row)
    (ho : row.paperExperimentStatus = .opened) {flow : Bool} (hflow : (s.flow flow).hasOpened = false) :
    ∃ g, g ≠ flow ∧ (s.flow g).hasOpened = true := by
  obtain ⟨g, hg⟩ := hs.opened row hrow ho
  refine ⟨g, ?_, hg⟩
  rintro rfl
  rw [hflow] at hg
  cases hg

theorem discover_inv (hs : DeliveryFlowInv id s) {flow : Bool} {r : DiscoveryRequest} {now : Int}
    (hphase : s.flow flow = .waiting)
    (hok : findRow s.rows id ≠ none ∨ (s.flow !flow).promoted = false) :
    DeliveryFlowInv id (s.write (.discovery r now) flow .analysing) := by
  refine write_flow hs (fun row hrow ho => ?_) nofun (.inr fun hp row hrow => ?_)
  all_goals
    rcases find_write hs.unique hrow with ⟨old, hold, row', hedit, haged⟩ | ⟨row', hnew, hid', haged⟩
  · cases hedit
    rw [haged.experiment.2] at ho
    exact .inr (other_opened hs hold ho (by rw [hphase]; rfl))
  · cases hnew
    rw [haged.experiment.2] at ho
    cases ho
  · cases hedit
    rw [haged.experiment.1]
    have hexec := hs.executable _ old hp hold
    rw [Bool.not_not, hphase] at hexec
    exact hexec.resolve_right (by simp [FlowPhase.pastDeciding])
  · rcases hok with hfound | hnp
    · exact absurd (hid' ▸ hnew.notFound.1) hfound
    · rw [hp] at hnp
      cases hnp

theorem decide_inv (hs : DeliveryFlowInv id s) {flow : Bool} {r : DecisionRequest} {now : Int}
    {paperMode : Bool} (hphase : s.flow flow = .analysing) (hid : r.observationId = id) (hr : r.ofFlow) :
    DeliveryFlowInv id (s.write (.decision r now) flow (decidedPhase r now paperMode s.rows)) := by
  refine write_flow hs (fun row hrow ho => ?_)
    (fun hp row hrow => .inl (promoted_executable hs hr hid hp hrow)) (.inl (decidedPhase_past hr.1 ..))
  rcases find_write hs.unique hrow with ⟨old, hold, row', hedit, haged⟩ | ⟨row', hnew, -, haged⟩
  all_goals rw [haged.experiment.2] at ho
  · cases hedit with
    | same => exact .inr (other_opened hs hold ho (by rw [hphase]; rfl))
    | decided =>
      -- a recorded decision leaves no open experiment
      simp only [DecisionRequest.row] at ho
      split_ifs at ho
  · cases hnew
    simp only [DecisionRequest.row] at ho
    split_ifs at ho

theorem finalize_inv (hs : DeliveryFlowInv id s) {flow : Bool} {r : FinalizeRequest} {now : Int}
    (hok : ∀ row, findRow s.rows id = some row → ¬ row.decided) :
    DeliveryFlowInv id (s.write (.finalize r now) flow (.finished false)) := by
  refine write_flow hs (fun row hrow ho => ?_) nofun (.inl rfl)
  rcases find_write hs.unique hrow with ⟨old, hold, row', hedit, haged⟩ | ⟨row', hnew, -, -⟩
  · rw [haged.experiment.2] at ho
    cases hedit with
    | same => exact absurd (.inr ho) (hok old hold)
    | finalized => cases ho
  · cases hnew

/-- The row after a mark of a paper experiment. -/
theorem mark_row (hs : DeliveryFlowInv id s) {status : PaperStatus} {positionId : Option Uuid} {row : Row}
    (hrow : findRow ((ObservationOp.mark id status positionId).write s.rows).rows id = some row) :
    ∃ old, findRow s.rows id = some old ∧ row.quoteStatus = old.quoteStatus ∧
      (row.paperExperimentStatus = old.paperExperimentStatus ∨ row.paperExperimentStatus = status) := by
  rcases find_write hs.unique hrow with ⟨old, hold, row', hedit, haged⟩ | ⟨row', hnew, -, -⟩
  · obtain ⟨hq, hp⟩ := haged.experiment
    cases hedit with
    | same => exact ⟨_, hold, hq, .inl hp⟩
    | marked => exact ⟨old, hold, hq, .inr hp⟩
  · cases hnew

theorem skip_inv (hs : DeliveryFlowInv id s) {flow capacityReached : Bool} (hphase : s.flow flow = .approved) :
    DeliveryFlowInv id (s.write (.mark id (if capacityReached then .skippedCapacity else .failed) none) flow
      (.finished false)) := by
  refine write_flow hs (fun row hrow ho => ?_) nofun (.inl rfl)
  obtain ⟨old, hold, -, hp | hp⟩ := mark_row hs hrow
  · exact .inr (other_opened hs hold (hp.symm.trans ho) (by rw [hphase]; rfl))
  · rw [hp] at ho
    split_ifs at ho

theorem opens_inv (hs : DeliveryFlowInv id s) {flow : Bool} {positionId : Uuid}
    (hphase : s.flow flow = .bought positionId) :
    DeliveryFlowInv id (s.write (.mark id .opened (some positionId)) flow .opened) := by
  refine write_flow hs (fun _ _ _ => .inl rfl) (fun _ row hrow => ?_) (.inl rfl)
  obtain ⟨old, hold, hq, -⟩ := mark_row hs hrow
  rw [hq]
  exact hs.executable flow old (by rw [hphase]; rfl) hold

theorem other_inv (hs : DeliveryFlowInv id s) {op : ObservationOp} (hop : op.foreign id) :
    DeliveryFlowInv id { s with rows := (op.write s.rows).rows } := by
  have hrow : ∀ {row}, findRow (op.write s.rows).rows id = some row → ∃ old, findRow s.rows id = some old ∧
      (old.quoteStatus = "EXECUTABLE" → row.quoteStatus = "EXECUTABLE") ∧
      (row.paperExperimentStatus = .opened → old.paperExperimentStatus = .opened) := by
    intro row hrow
    rcases find_write hs.unique hrow with ⟨old, hold, row', hedit, haged⟩ | ⟨row', hnew, hid, -⟩
    · obtain ⟨hq, ho, -⟩ := foreign_edit hop (findRow_some hold).2 hedit
      rw [haged.experiment.1, haged.experiment.2]
      exact ⟨old, hold, hq, ho⟩
    · cases hnew with
      | discovered => exact absurd hid hop
      | decided => exact absurd hid hop
  refine ⟨unique_write hs op, fun row h ho => ?_, fun g row hg h => ?_⟩
  · obtain ⟨old, hold, -, hopened⟩ := hrow h
    exact hs.opened old hold (hopened ho)
  · obtain ⟨old, hold, hq, -⟩ := hrow h
    exact (hs.executable g old hg hold).imp_left hq

theorem markers_inv (hs : DeliveryFlowInv id s) (snapshots : List Row) :
    DeliveryFlowInv id { s with rows := (persistArchiveMarkers snapshots s.rows).rows } := by
  refine ⟨?_, fun row h ho => ?_, fun g row hg h => ?_⟩
  · have hids := map_persist snapshots s.rows
    have hu := hs.unique
    unfold UniqueIds at hu
    rw [← hids] at hu
    exact hu.sublist ((Write.rows_sublist _).map _)
  · obtain ⟨old, hold, _, rfl⟩ := find_markers hs.unique snapshots h
    exact hs.opened old hold ho
  · obtain ⟨old, hold, _, rfl⟩ := find_markers hs.unique snapshots h
    exact hs.executable g old hg hold

theorem deliveryFlowInv_step {a : DeliveryAct} (hs : DeliveryFlowInv id s) (hok : sparesDecided id s a)
    (h : s.step id a = some s') : DeliveryFlowInv id s' := by
  cases a with
  | discover flow r now =>
    simp only [Deliveries.step] at h
    split_ifs at h with hc
    obtain rfl := Option.some.inj h
    exact discover_inv hs hc.1 hok.2
  | decide flow r now paperMode =>
    simp only [Deliveries.step] at h
    split_ifs at h with hc
    obtain rfl := Option.some.inj h
    exact decide_inv hs hc.1 hc.2.1 hc.2.2
  | finalize flow r now =>
    simp only [Deliveries.step] at h
    split_ifs at h
    obtain rfl := Option.some.inj h
    exact finalize_inv hs hok.2
  | buy flow positionId =>
    simp only [Deliveries.step] at h
    split_ifs at h with hphase
    obtain rfl := Option.some.inj h
    exact move_flow hs (by rw [hphase]; exact nofun) (fun _ => by rw [hphase]; rfl) rfl
  | skip flow capacityReached =>
    simp only [Deliveries.step, Option.ite_none_right_eq_some, Option.some.injEq] at h
    obtain ⟨hphase, rfl⟩ := h
    exact skip_inv hs hphase
  | opens flow =>
    simp only [Deliveries.step] at h
    split at h
    · rename_i positionId hphase
      obtain rfl := Option.some.inj h
      exact opens_inv hs hphase
    · cases h
  | ends flow =>
    obtain rfl := Option.some.inj h
    refine move_flow hs (fun h => by rw [h]; rfl) (fun h => hasOpened_promoted ?_) rfl
    cases ho : (s.flow flow).hasOpened with
    | true => rfl
    | false => rw [ho] at h; cases h
  | other op =>
    simp only [Deliveries.step] at h
    split_ifs at h with hop
    obtain rfl := Option.some.inj h
    exact other_inv hs hop
  | markers snapshots =>
    obtain rfl := Option.some.inj h
    exact markers_inv hs snapshots

/-- A call whose edits keep the samples keeps an unmarked row with them. -/
theorem write_keeps (hs : DeliveryFlowInv id s) {op : ObservationOp} {row : Row}
    (hrow : findRow s.rows id = some row) (harch : row.archived = false)
    (hsamples : ∀ row', Edit s.rows op row row' → row.samples <+: row'.samples) :
    ∃ row', findRow (op.write s.rows).rows id = some row' ∧ row.samples <+: row'.samples := by
  obtain ⟨row', row'', hedit, haged, hsaved | hevicted⟩ := write_find hs.unique op hrow
  · exact ⟨row'', hsaved, by rw [haged.keeps.2.2]; exact hsamples row' hedit⟩
  · obtain ⟨-, -, harch''⟩ := Write.evicted_completed hevicted
    unfold Row.archived at harch harch''
    rw [haged.keeps.2.1, hedit.archivedAt, harch] at harch''
    cases harch''

/-- A decided row is not completed for the retention. -/
theorem decided_not_completed {row : Row} (h : row.decided) : row.completed = false := by
  unfold Row.completed Row.terminal
  rcases h with ⟨-, hstatus⟩ | hopened
  · rw [hstatus]
    rfl
  · simp [hopened]

theorem keepsDecided_step {a : DeliveryAct} (hs : DeliveryFlowInv id s) (hok : sparesDecided id s a)
    (h : s.step id a = some s') : KeepsDecided id s a s' := by
  intro row hrow hdec
  have harch := hok.1 row hrow hdec
  have hid := (findRow_some hrow).2
  -- only the end of a candidate has a claim on the new status, and it does not find the row
  have hfinal : (∃ row', findRow s'.rows id = some row' ∧ row.samples <+: row'.samples) →
      ∃ row', findRow s'.rows id = some row' ∧ row.samples <+: row'.samples ∧
        (a.isFinalize = true → ¬ (row'.status = .complete ∧ row'.paperExperimentStatus = .notEligible)) := by
    rintro ⟨row', hrow', hsamples⟩
    refine ⟨row', hrow', hsamples, fun hf => ?_⟩
    cases a with
    | finalize => exact absurd hdec (hok.2 row hrow)
    | _ => cases hf
  apply hfinal
  cases a with
  | discover flow r now =>
    simp only [Deliveries.step] at h
    split_ifs at h
    obtain rfl := Option.some.inj h
    exact write_keeps hs hrow harch fun row' hedit => by cases hedit; exact List.prefix_rfl
  | decide flow r now paperMode =>
    simp only [Deliveries.step] at h
    split_ifs at h with hc
    obtain rfl := Option.some.inj h
    refine write_keeps hs hrow harch fun row' hedit => ?_
    cases hedit with
    | same => exact List.prefix_rfl
    | decided _ hq =>
      -- a decided row is executable as long as this flow has not decided
      rcases hdec with ⟨hexec, -⟩ | hopened
      · exact absurd hexec hq
      · exact absurd (opened_executable hs hrow hopened (by rw [hc.1]; rfl)) hq
  | finalize flow r now => exact absurd hdec (hok.2 row hrow)
  | buy flow positionId =>
    simp only [Deliveries.step] at h
    split_ifs at h
    obtain rfl := Option.some.inj h
    exact ⟨row, hrow, List.prefix_rfl⟩
  | skip flow capacityReached =>
    simp only [Deliveries.step, Option.ite_none_right_eq_some, Option.some.injEq] at h
    obtain ⟨-, rfl⟩ := h
    exact write_keeps hs hrow harch fun row' hedit => by cases hedit <;> exact List.prefix_rfl
  | opens flow =>
    simp only [Deliveries.step] at h
    split at h
    · obtain rfl := Option.some.inj h
      exact write_keeps hs hrow harch fun row' hedit => by cases hedit <;> exact List.prefix_rfl
    · cases h
  | ends flow =>
    obtain rfl := Option.some.inj h
    exact ⟨row, hrow, List.prefix_rfl⟩
  | other op =>
    simp only [Deliveries.step] at h
    split_ifs at h with hop
    obtain rfl := Option.some.inj h
    exact write_keeps hs hrow harch fun row' hedit => (foreign_edit hop hid hedit).2.2
  | markers snapshots =>
    obtain rfl := Option.some.inj h
    obtain ⟨row', hrow', hsamples⟩ := markers_find hs.unique snapshots hrow (decided_not_completed hdec)
    exact ⟨row', hrow', by rw [hsamples]⟩

end Step

theorem deliveryFlowInv_start {id : ObservationId} {rows : List Row} (hu : UniqueIds rows)
    (hnew : findRow rows id = none) : DeliveryFlowInv id (Deliveries.start rows) :=
  { unique := hu
    opened := by
      intro row hrow
      rw [show (Deliveries.start rows).rows = rows from rfl, hnew] at hrow
      cases hrow
    executable := by
      intro flow row hpromoted
      cases hpromoted }

/-- A decision is not undone, in every run in which no end of a candidate finds a decided row. -/
theorem decided_kept {id : ObservationId} {rows : List Row} (hu : UniqueIds rows)
    (hnew : findRow rows id = none) {acts : List DeliveryAct} {s : Deliveries}
    (h : Run (Deliveries.step id) (sparesDecided id) (Deliveries.start rows) acts s) {a : DeliveryAct}
    {s' : Deliveries} (hok : sparesDecided id s a) (ha : s.step id a = some s') : KeepsDecided id s a s' := by
  have hs : DeliveryFlowInv id s :=
    h.invariant (fun _ _ _ hs hok h => deliveryFlowInv_step hs hok h) (deliveryFlowInv_start hu hnew)
  exact keepsDecided_step hs hok ha

instance (id : ObservationId) (s : Deliveries) (a : DeliveryAct) : Decidable (sparesDecided id s a) :=
  @instDecidableAnd _ _ (inferInstanceAs (Decidable (∀ row ∈ findRow s.rows id, row.decided → _)))
    (match a with
    | .discover flow _ _ => inferInstanceAs (Decidable (_ ∨ (s.flow !flow).promoted = false))
    | .finalize _ _ _ => inferInstanceAs (Decidable (∀ row ∈ findRow s.rows id, ¬ row.decided))
    | .decide .. | .buy .. | .skip .. | .opens _ | .ends _ | .other _ | .markers _ => .isTrue trivial)

/-- The discovery of the signal of the sample decision. -/
def signalDiscovery : DiscoveryRequest where
  mint := sampleDecision.mint
  routeType := .A
  sourceWallet := sampleDecision.sourceWallet
  sourceSignature := sampleDecision.sourceSignature
  tokenAmountRaw := 1000
  dexMomentumScore := 0

/-- The end of its candidate. -/
def signalFailure : FinalizeRequest where
  observationId := sampleDecision.observationId
  decisionStatus := .failed
  decisionReasons := ["PROCESSING_FAILED"]
  quoteStatus := "PROCESSING_FAILED"
  safetyScore := none
  analysisCompletedAt := none

/-- Both deliveries are discovered, and the first is decided. -/
def decidedOnce : List DeliveryAct :=
  [.discover false signalDiscovery 0, .discover true signalDiscovery 1, .decide false sampleDecision 2 true]

/-- The row of the sample signal is decided. -/
def SignalDecided (s : Deliveries) : Prop := (findRow s.rows sampleDecision.observationId).any fun row => row.decided

instance (s : Deliveries) : Decidable (SignalDecided s) := inferInstanceAs (Decidable (_ = true))

/-- The second delivery decides as well, and finds the row decided. -/
theorem decided_kept_twice : ∃ s s',
    Run (Deliveries.step sampleDecision.observationId) (sparesDecided sampleDecision.observationId)
      (Deliveries.start []) decidedOnce s ∧
    s.step sampleDecision.observationId (.decide true sampleDecision 3 true) = some s' ∧ SignalDecided s ∧
    KeepsDecided sampleDecision.observationId s (.decide true sampleDecision 3 true) s' := by
  have hrun : ∃ s, Run (Deliveries.step sampleDecision.observationId)
      (sparesDecided sampleDecision.observationId) (Deliveries.start []) decidedOnce s ∧
      (SignalDecided s ∧ sparesDecided sampleDecision.observationId s (.decide true sampleDecision 3 true) ∧
        (s.step sampleDecision.observationId (.decide true sampleDecision 3 true)).isSome = true) :=
    Run.exists_of_any (by decide +kernel)
  obtain ⟨s, hrun, hdecided, hok, hstep⟩ := hrun
  obtain ⟨s', hs'⟩ := Option.isSome_iff_exists.1 hstep
  have hu : UniqueIds [] := List.nodup_nil
  exact ⟨s, s', hrun, hs', hdecided, decided_kept hu rfl hrun hok hs'⟩

/-- The row is ended without a quote. -/
def SignalUndone (s : Deliveries) : Prop := (findRow s.rows sampleDecision.observationId).any fun row =>
  row.status = .complete ∧ row.paperExperimentStatus = .notEligible

instance (s : Deliveries) : Decidable (SignalUndone s) := inferInstanceAs (Decidable (_ = true))

/-- The second delivery fails after the first is decided, and ends the candidate. -/
theorem decision_undone : ∃ s s',
    Run (Deliveries.step sampleDecision.observationId) Run.anyStep (Deliveries.start []) decidedOnce s ∧
    s.step sampleDecision.observationId (.finalize true signalFailure 3) = some s' ∧
    ¬ KeepsDecided sampleDecision.observationId s (.finalize true signalFailure 3) s' := by
  have hrun : ∃ s, Run (Deliveries.step sampleDecision.observationId) Run.anyStep (Deliveries.start [])
      decidedOnce s ∧ (SignalDecided s ∧
        (s.step sampleDecision.observationId (.finalize true signalFailure 3)).any (SignalUndone ·) = true) :=
    Run.exists_of_any (by decide +kernel)
  obtain ⟨s, hrun, hdecided, hundone⟩ := hrun
  obtain ⟨s', hs', hundone⟩ := (Option.any_eq_true _ _).1 hundone
  refine ⟨s, s', hrun, hs', fun hkeeps => ?_⟩
  obtain ⟨row, hrow, hdec⟩ := (Option.any_eq_true _ _).1 hdecided
  obtain ⟨row', hrow', -, hnot⟩ := hkeeps row hrow (of_decide_eq_true hdec)
  obtain ⟨row'', hrow'', hcomplete⟩ := (Option.any_eq_true _ _).1 (of_decide_eq_true hundone)
  obtain rfl := Option.some.inj (hrow'.symm.trans hrow'')
  exact hnot rfl (of_decide_eq_true hcomplete)

end Aibot.Observation
