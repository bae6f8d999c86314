/-
What the samples of a row say in every reachable ledger: no horizon is sampled twice, the excursions
are the extremes of the returns, and a complete executable row has every required horizon, so that a
shadow trade is made of it.
-/
import Mathlib.Order.Bounds.Basic
import Aibot.Lib.Run
import Aibot.Observation.Batch

namespace Aibot.Observation

open Aibot.Risk

/-! ## The extremes of a list -/

section Extremes

variable {α : Type*} [LinearOrder α]

theorem isGreatest_foldl_max : ∀ (a : α) (xs : List α), IsGreatest {x | x = a ∨ x ∈ xs} (xs.foldl max a)
  | a, [] => by simp [IsGreatest, upperBounds]
  | a, x :: xs => by
    obtain ⟨hmem, hle⟩ := isGreatest_foldl_max (max a x) xs
    rw [List.foldl_cons]
    refine ⟨?_, ?_⟩
    · rcases hmem with h | h
      · rcases max_choice a x with hmax | hmax
        · exact .inl (h.trans hmax)
        · exact .inr (List.mem_cons.2 (.inl (h.trans hmax)))
      · exact .inr (List.mem_cons_of_mem _ h)
    · -- the two elements the first comparison is of are below its result
      have hfirst : max a x ≤ xs.foldl max (max a x) := hle (.inl rfl)
      rintro y (rfl | h)
      · exact (le_max_left _ _).trans hfirst
      · rcases List.mem_cons.1 h with rfl | h
        · exact (le_max_right _ _).trans hfirst
        · exact hle (.inr h)

theorem isLeast_foldl_min (a : α) (xs : List α) : IsLeast {x | x = a ∨ x ∈ xs} (xs.foldl min a) :=
  @isGreatest_foldl_max αᵒᵈ _ a xs

end Extremes

/-! ## Calls and markers -/

/-- A write of the ledger: a call of one of its writers, or the markers of a drain. -/
inductive LedgerAct
  | call (op : ObservationOp)
  | markers (snapshots : List Row)

/-- The ledger after a write. -/
def LedgerAct.step (rows : List Row) : LedgerAct → Option (List Row)
  | .call op => some (op.write rows).rows
  | .markers snapshots => some (persistArchiveMarkers snapshots rows).rows

/-- A write that does not end a candidate as executable. -/
def LedgerAct.withoutQuote (_ : List Row) : LedgerAct → Prop
  | .call (.finalize r _) => normalizedQuoteStatus r.quoteStatus ≠ "EXECUTABLE"
  | _ => True

instance (rows : List Row) : (act : LedgerAct) → Decidable (act.withoutQuote rows)
  | .call (.finalize ..) => inferInstanceAs (Decidable (_ ≠ _))
  | .call (.discovery ..) | .call (.decision ..) | .call (.mark ..) | .call (.sampleAttempt ..)
  | .call (.sampleBatch ..) | .call (.reconcile ..) | .markers _ => .isTrue trivial

/-! ## Sound rows -/

/-- What the samples of a row are, beside its other fields. -/
structure Row.Sound (row : Row) : Prop where
  distinct : row.completedIntervals.Nodup
  mfe : row.mfePercent = excursion max row.samples
  mae : row.maePercent = excursion min row.samples
  complete : row.status = .complete → row.quoteStatus = "EXECUTABLE" →
    ∀ i ∈ row.trackingProfile.requiredIntervals, i ∈ row.completedIntervals

/-- A row without samples that is not complete. -/
theorem Row.Sound.ofEmpty {row : Row} (hsamples : row.samples = []) (hmfe : row.mfePercent = none)
    (hmae : row.maePercent = none) (hstatus : row.status ≠ .complete) : row.Sound where
  distinct := by unfold Row.completedIntervals; rw [hsamples]; exact List.nodup_nil
  mfe := by rw [hmfe, hsamples]; rfl
  mae := by rw [hmae, hsamples]; rfl
  complete := fun h => absurd h hstatus

/-- A row with the samples of another, that is complete and executable only if the other is. -/
theorem Row.Sound.congr {row row' : Row} (h : row.Sound) (hsamples : row'.samples = row.samples)
    (hmfe : row'.mfePercent = row.mfePercent) (hmae : row'.maePercent = row.maePercent)
    (hprofile : row'.trackingProfile = row.trackingProfile)
    (hcomplete : row'.status = .complete → row'.quoteStatus = "EXECUTABLE" →
      row.status = .complete ∧ row.quoteStatus = "EXECUTABLE") : row'.Sound where
  distinct := by unfold Row.completedIntervals; rw [hsamples]; exact h.distinct
  mfe := by rw [hmfe, hsamples]; exact h.mfe
  mae := by rw [hmae, hsamples]; exact h.mae
  complete := by
    intro hs hq
    obtain ⟨hs, hq⟩ := hcomplete hs hq
    rw [hprofile]
    unfold Row.completedIntervals
    rw [hsamples]
    exact h.complete hs hq

theorem Row.Sound.sampled {row row' : Row} (h : row.Sound) (hs : Sampled row row') : row'.Sound := by
  by_cases hcomplete : row.status = .complete
  · have hterminal : row.terminal = true := by unfold Row.terminal; rw [hcomplete]; rfl
    rw [hs.of_terminal hterminal]
    exact h
  · have hrequired : row'.status = .complete → row'.quoteStatus = "EXECUTABLE" →
        ∀ i ∈ row'.trackingProfile.requiredIntervals, i ∈ row'.completedIntervals :=
      fun hstatus _ => hs.required hcomplete hstatus
    suffices hkeep : row'.completedIntervals.Nodup ∧ row'.mfePercent = excursion max row'.samples ∧
        row'.maePercent = excursion min row'.samples from ⟨hkeep.1, hkeep.2.1, hkeep.2.2, hrequired⟩
    replace h := And.intro h.distinct (And.intro h.mfe h.mae)
    clear hrequired hcomplete
    induction hs with
    | refl _ => exact h
    | @step row row' result now _ _ hnew _ ih =>
      refine ih ⟨?_, rfl, rfl⟩
      show ((row.samples ++ [result.sample now row]).map Sample.interval).Nodup
      rw [List.map_append, List.nodup_append]
      refine ⟨h.1, List.nodup_singleton _, ?_⟩
      rintro i hi j hj rfl
      obtain rfl := List.mem_singleton.1 hj
      exact hnew hi

theorem Row.Sound.aged {row row' : Row} (h : row.Sound) (ha : Aged row row') : row'.Sound := by
  cases ha with
  | same => exact h
  | expired => exact h.congr rfl rfl rfl rfl nofun

theorem Fresh.sound {rows : List Row} {op : ObservationOp} {row : Row} (h : Fresh rows op row) :
    row.Sound := by
  cases h with
  | discovered => exact .ofEmpty rfl rfl rfl nofun
  | decided => exact .ofEmpty rfl rfl rfl nofun

theorem Edit.sound {rows : List Row} {op : ObservationOp} {row row' : Row}
    (hop : (LedgerAct.call op).withoutQuote rows) (h : Edit rows op row row') (hrow : row.Sound) :
    row'.Sound := by
  cases h with
  | same => exact hrow
  | decided => exact .ofEmpty rfl rfl rfl nofun
  | finalized => exact hrow.congr rfl rfl rfl rfl fun _ hq => absurd hq hop
  | marked => exact hrow.congr rfl rfl rfl rfl fun hs hq => ⟨hs, hq⟩
  | attempted => exact hrow.congr rfl rfl rfl rfl fun hs hq => ⟨hs, hq⟩
  | sampled hs => exact hrow.sampled hs
  | reconciled =>
    have hne : ("PROCESSING_FAILED" : String) ≠ "EXECUTABLE" := by decide
    exact hrow.congr rfl rfl rfl rfl fun _ hq => absurd hq hne

theorem Row.Sound.withMarker {row : Row} (h : row.Sound) (markers : Dict ObservationId Int) :
    (row.withMarker markers).Sound := by
  obtain ⟨archivedAt, heq⟩ := withMarker_row markers row
  rw [heq]
  exact h.congr rfl rfl rfl rfl fun hs hq => ⟨hs, hq⟩

/-! ## Reachable ledgers -/

/-- A ledger of sound rows. -/
structure SoundLedger (rows : List Row) : Prop where
  unique : UniqueIds rows
  sound : ∀ row ∈ rows, row.Sound

theorem SoundLedger.nil : SoundLedger [] := ⟨List.nodup_nil, fun _ hrow => by cases hrow⟩

theorem SoundLedger.sublist {rows rows' : List Row} (h : SoundLedger rows) (hsub : rows'.Sublist rows) :
    SoundLedger rows' :=
  ⟨h.unique.sublist (hsub.map _), fun row hrow => h.sound row (hsub.subset hrow)⟩

theorem SoundLedger.call {rows : List Row} (h : SoundLedger rows) {op : ObservationOp}
    (hop : (LedgerAct.call op).withoutQuote rows) : SoundLedger (op.write rows).touched := by
  have heff := write_effect h.unique op
  refine ⟨heff.unique h.unique, fun row'' hrow'' => ?_⟩
  rcases heff.backward hrow'' with ⟨row, hrow, row', hedit, haged⟩ | ⟨row', hnew, haged⟩
  · exact (hedit.sound hop (h.sound row hrow)).aged haged
  · exact hnew.sound.aged haged

theorem SoundLedger.markers {rows : List Row} (h : SoundLedger rows) (snapshots : List Row) :
    SoundLedger (persistArchiveMarkers snapshots rows).touched := by
  refine ⟨by unfold UniqueIds; rw [map_persist]; exact h.unique, fun row hrow => ?_⟩
  obtain ⟨markers, heq⟩ := persist_map snapshots rows
  rw [heq] at hrow
  obtain ⟨old, hold, rfl⟩ := List.mem_map.1 hrow
  exact (h.sound old hold).withMarker markers

theorem SoundLedger.step {rows rows' : List Row} (h : SoundLedger rows) {act : LedgerAct}
    (hok : act.withoutQuote rows) (hstep : act.step rows = some rows') : SoundLedger rows' := by
  cases act with
  | call op =>
    obtain rfl := Option.some.inj hstep
    exact (h.call hok).sublist (Write.rows_sublist _)
  | markers snapshots =>
    obtain rfl := Option.some.inj hstep
    exact (h.markers snapshots).sublist (Write.rows_sublist _)

theorem soundLedger_run {acts : List LedgerAct} {rows : List Row}
    (h : Run LedgerAct.step LedgerAct.withoutQuote [] acts rows) : SoundLedger rows :=
  h.invariant (fun _ _ _ hs hok hstep => hs.step hok hstep) .nil

/-! ## What the samples say -/

theorem mem_observedReturns {samples : List Sample} {x : ℚ} :
    x ∈ observedReturns samples ↔ ∃ sample ∈ samples, sample.returnPercent = some x :=
  List.mem_filterMap

theorem excursion_none {extreme : ℚ → ℚ → ℚ} {samples : List Sample}
    (h : ∀ sample ∈ samples, sample.returnPercent = none) : excursion extreme samples = none := by
  unfold excursion
  have hnil : observedReturns samples = [] := List.filterMap_eq_nil_iff.2 h
  rw [hnil]

theorem excursion_some (extreme : ℚ → ℚ → ℚ) {samples : List Sample} {sample : Sample}
    (hmem : sample ∈ samples) {x : ℚ} (hx : sample.returnPercent = some x) :
    excursion extreme samples = some ((observedReturns samples).foldl extreme 0) := by
  unfold excursion
  split
  · rename_i hnil
    have hmem : x ∈ observedReturns samples := mem_observedReturns.2 ⟨sample, hmem, hx⟩
    rw [hnil] at hmem
    cases hmem
  · rfl

/-- In every ledger that the writers reach without ending a candidate as executable, no horizon of a
row is sampled twice; its excursions are none without a return, else the greatest and the least of zero
and its returns; and complete and executable it has every required horizon and makes a shadow trade. -/
theorem sample_integrity {acts : List LedgerAct} {rows : List Row}
    (h : Run LedgerAct.step LedgerAct.withoutQuote [] acts rows) {row : Row} (hrow : row ∈ rows) :
    (row.samples.map Sample.interval).Nodup ∧
    ((∀ sample ∈ row.samples, sample.returnPercent = none) →
      row.mfePercent = none ∧ row.maePercent = none) ∧
    ((∃ sample ∈ row.samples, sample.returnPercent ≠ none) →
      ∃ mfe mae, row.mfePercent = some mfe ∧ row.maePercent = some mae ∧
        IsGreatest {x | x = 0 ∨ ∃ sample ∈ row.samples, sample.returnPercent = some x} mfe ∧
        IsLeast {x | x = 0 ∨ ∃ sample ∈ row.samples, sample.returnPercent = some x} mae) ∧
    (row.status = .complete → row.quoteStatus = "EXECUTABLE" →
      (∀ i ∈ row.trackingProfile.requiredIntervals, i ∈ row.completedIntervals) ∧
      (strip row.observationId ≠ "" → ∀ now, completedShadowTrade row now ≠ none)) := by
  have hsound := (soundLedger_run h).sound row hrow
  refine ⟨hsound.distinct, fun hnone => ?_, ?_, fun hstatus hquote => ?_⟩
  · rw [hsound.mfe, hsound.mae]
    exact ⟨excursion_none hnone, excursion_none hnone⟩
  · rintro ⟨sample, hmem, hne⟩
    obtain ⟨x, hx⟩ := Option.ne_none_iff_exists'.1 hne
    have hmfe := hsound.mfe.trans (excursion_some max hmem hx)
    have hmae := hsound.mae.trans (excursion_some min hmem hx)
    refine ⟨_, _, hmfe, hmae, ?_, ?_⟩
    all_goals simp only [← mem_observedReturns]
    · exact isGreatest_foldl_max 0 (observedReturns row.samples)
    · exact isLeast_foldl_min 0 (observedReturns row.samples)
  · have hrequired := hsound.complete hstatus hquote
    refine ⟨hrequired, fun hid now => ?_⟩
    rw [← shadowIntervals_eq] at hrequired
    have hsome := completedShadowTrade_isSome now ⟨hstatus, hquote, hrequired, hid⟩
    exact Option.isSome_iff_ne_none.1 hsome

/-- An approved decision, a discovery that ends without a quote, and one batch with every horizon of the
first. -/
def completingActs : List LedgerAct :=
  [.call (.decision sampleDecision 0),
    .call (.discovery ⟨"other", .B, "wallet", "signature", 1000, 95⟩ 0),
    .call (.finalize
      ⟨observationKey "signature" "wallet" "other", .unavailable, [], "SIZE_UNUSABLE", none, none⟩ 1),
    .call (.sampleBatch (observationIntervals.map fun i =>
      ⟨sampleDecision.observationId, i, some (1000 + i.seconds), none, none⟩) 3600000000)]

theorem sample_integrity_completed :
    ∃ rows, Run LedgerAct.step LedgerAct.withoutQuote [] completingActs rows ∧ ∃ row ∈ rows,
      row.mfePercent = some 360 ∧ row.maePercent = some 0 ∧ completedShadowTrade row 0 ≠ none := by
  obtain ⟨rows, hrun, row, hrow, hstatus, hquote, hmfe, hmae, hid⟩ :
      ∃ rows, Run LedgerAct.step LedgerAct.withoutQuote [] completingActs rows ∧
        ∃ row ∈ rows, row.status = .complete ∧ row.quoteStatus = "EXECUTABLE" ∧
          row.mfePercent = some 360 ∧ row.maePercent = some 0 ∧ strip row.observationId ≠ "" :=
    Run.exists_of_any (by decide +kernel)
  have hcomplete := (sample_integrity hrun hrow).2.2.2 hstatus hquote
  exact ⟨rows, hrun, row, hrow, hmfe, hmae, hcomplete.2 hid 0⟩

end Aibot.Observation
