/-
A batch of samples row by row: what each row takes of the results, which rows the batch changes, and
which snapshots it records.
-/
import Aibot.Lib.Dropped
import Aibot.Observation.Batch

namespace Aibot.Observation

open Aibot.Risk

/-! ## Samples on one row -/

/-- The row takes a sample of the result. -/
def SampleResult.applies (result : SampleResult) (row : Row) : Bool :=
  decide (result.observationId = row.observationId) && !row.terminal &&
    decide (result.interval ∉ row.completedIntervals)

/-- The row after a result. -/
def Row.take (now : Int) (row : Row) (result : SampleResult) : Row :=
  if result.applies row then row.sampled (result.sample now row) now else row

/-- The row after all results, in their order. -/
def Row.takeAll (now : Int) (results : List SampleResult) (row : Row) : Row := results.foldl (Row.take now) row

section Row

variable (now : Int) (results : List SampleResult) (row : Row)

theorem SampleResult.applies_iff {result : SampleResult} {row : Row} : result.applies row = true ↔
    result.observationId = row.observationId ∧ row.terminal = false ∧ result.interval ∉ row.completedIntervals := by
  unfold SampleResult.applies
  simp [and_assoc]

theorem sampled_take (result : SampleResult) : Sampled row (row.take now result) := by
  unfold Row.take
  split_ifs with happ
  · obtain ⟨hid, ht, hi⟩ := SampleResult.applies_iff.1 happ
    exact .step hid ht hi (.refl _)
  · exact .refl row

theorem sampled_takeAll : Sampled row (row.takeAll now results) := by
  induction results generalizing row with
  | nil => exact .refl row
  | cons result results ih => exact (sampled_take now row result).trans (ih _)

@[simp] theorem takeAll_nil : row.takeAll now [] = row := rfl

@[simp] theorem takeAll_cons (result : SampleResult) :
    row.takeAll now (result :: results) = (row.take now result).takeAll now results := rfl

@[simp] theorem takeAll_id : (row.takeAll now results).observationId = row.observationId :=
  (sampled_takeAll now results row).keeps.1

theorem takeAll_archived : (row.takeAll now results).archived = row.archived := by
  unfold Row.archived
  rw [(sampled_takeAll now results row).keeps.2.1]

theorem takeAll_paper : (row.takeAll now results).paperExperimentStatus = row.paperExperimentStatus :=
  (sampled_takeAll now results row).keeps.2.2.2.1

variable {row}

theorem takeAll_of_terminal (h : row.terminal = true) : row.takeAll now results = row :=
  (sampled_takeAll now results row).of_terminal h

theorem take_of_not_applies {result : SampleResult} (h : result.applies row = false) : row.take now result = row := by
  unfold Row.take
  rw [h]
  rfl

/-- A row that takes a sample has one more. -/
theorem length_samples_take {result : SampleResult} (h : result.applies row = true) :
    (row.take now result).samples.length = row.samples.length + 1 := by
  unfold Row.take
  rw [if_pos h]
  simp [Row.sampled]

theorem length_samples_le : row.samples.length ≤ (row.takeAll now results).samples.length :=
  (sampled_takeAll now results row).keeps.2.2.2.2.2.length_le

/-- A row that the results change has more samples. -/
theorem length_samples_lt (h : row.takeAll now results ≠ row) :
    row.samples.length < (row.takeAll now results).samples.length := by
  induction results generalizing row with
  | nil => exact absurd rfl h
  | cons result results ih =>
    rw [takeAll_cons] at h ⊢
    cases happ : result.applies row with
    | true =>
      have hone := length_samples_take now happ
      have hrest : (row.take now result).samples.length ≤ ((row.take now result).takeAll now results).samples.length :=
        length_samples_le now results
      omega
    | false =>
      rw [take_of_not_applies now happ] at h ⊢
      exact ih h

/-- A row that no result of a list changes takes none of them. -/
theorem take_of_takeAll_cons {result : SampleResult} (h : row.takeAll now (result :: results) = row) :
    result.applies row = false := by
  by_contra happ
  have hone : (row.take now result).samples.length = row.samples.length + 1 :=
    length_samples_take now (by simpa using happ)
  have hrest : (row.take now result).samples.length ≤ ((row.take now result).takeAll now results).samples.length :=
    length_samples_le now results
  rw [← takeAll_cons, h] at hrest
  omega

theorem take_sampled_terminal {result : SampleResult} (h : row.terminal = false)
    (ht : (row.take now result).terminal = true) : (row.take now result).status = .complete := by
  unfold Row.take at ht ⊢
  split_ifs at ht ⊢
  · unfold Row.terminal Row.sampled at ht
    unfold Row.sampled
    dsimp only at ht ⊢
    split_ifs at ht ⊢
    · rfl
    · unfold Row.terminal at h
      rw [h] at ht
      cases ht
  · rw [h] at ht
    cases ht

/-- Samples end a row only by completing it. -/
theorem takeAll_terminal (h : row.terminal = false) (ht : (row.takeAll now results).terminal = true) :
    (row.takeAll now results).status = .complete := by
  induction results generalizing row with
  | nil => rw [takeAll_nil, h] at ht; cases ht
  | cons result results ih =>
    rw [takeAll_cons] at ht ⊢
    cases hone : (row.take now result).terminal with
    | false => exact ih hone ht
    | true =>
      rw [takeAll_of_terminal now results hone]
      exact take_sampled_terminal now h hone

theorem expirable_of_takeAll (h : (row.takeAll now results).expirable = true) : row.expirable = true := by
  unfold Row.expirable at h ⊢
  rw [takeAll_paper] at h
  cases ht : row.terminal with
  | false => simpa using (Bool.and_eq_true_iff.1 h).2
  | true =>
    rw [takeAll_of_terminal now results ht, ht] at h
    cases h

/-- A row that waits and is not ended still waits. -/
theorem expirable_takeAll (h : row.expirable = true) (ht : (row.takeAll now results).terminal = false) :
    (row.takeAll now results).expirable = true := by
  unfold Row.expirable at h ⊢
  rw [takeAll_paper, ht]
  simpa using (Bool.and_eq_true_iff.1 h).2

end Row

theorem takeAll_append (now : Int) (first second : List SampleResult) (row : Row) :
    row.takeAll now (first ++ second) = (row.takeAll now first).takeAll now second := List.foldl_append

/-! ## Samples on the ledger -/

section Ledger

variable {rows : List Row} (now : Int)

theorem UniqueIds.takeAll (hu : UniqueIds rows) (results : List SampleResult) :
    UniqueIds (rows.map (Row.takeAll now results)) :=
  hu.map fun row _ => takeAll_id now results row

/-- One result, on all rows. -/
theorem applySampleToDocument_eq (hu : UniqueIds rows) (result : SampleResult) :
    applySampleToDocument result now rows =
      if ∃ row ∈ rows, result.applies row = true then some (rows.map fun row => row.take now result) else none := by
  unfold applySampleToDocument
  split
  · rename_i hnone
    rw [if_neg]
    rintro ⟨row, hrow, happ⟩
    have hid := (SampleResult.applies_iff.1 happ).1
    exact findRow_none.1 hnone (List.mem_map.2 ⟨row, hrow, hid.symm⟩)
  · rename_i target htarget
    obtain ⟨hmem, hid⟩ := findRow_some htarget
    have hone : ∀ row ∈ rows, row.observationId = result.observationId → row = target := fun row hrow hrid =>
      List.inj_on_of_nodup_map hu hrow hmem (hrid.trans hid.symm)
    split_ifs with hskip happ happ
    · obtain ⟨row, hrow, happ⟩ := happ
      obtain ⟨hrid, ht, hi⟩ := SampleResult.applies_iff.1 happ
      obtain rfl := hone row hrow hrid.symm
      rcases hskip with hskip | hskip
      · rw [ht] at hskip
        cases hskip
      · exact absurd hskip hi
    · rfl
    · have happ : result.applies target = true := by
        obtain ⟨ht, hi⟩ := not_or.1 hskip
        exact SampleResult.applies_iff.2 ⟨hid.symm, by simpa using ht, hi⟩
      rw [modifyRow_eq_map hu]
      refine congrArg some (List.map_congr_left fun row hrow => ?_)
      split_ifs with hrid
      · rw [hone row hrow hrid]
        unfold Row.take
        rw [if_pos happ]
      · refine (take_of_not_applies now ?_).symm
        by_contra hcon
        exact hrid (SampleResult.applies_iff.1 (by simpa using hcon)).1.symm
    · obtain ⟨ht, hi⟩ := not_or.1 hskip
      exact absurd ⟨target, hmem, SampleResult.applies_iff.2 ⟨hid.symm, by simpa using ht, hi⟩⟩ happ

theorem map_take_of_none {result : SampleResult} (h : ¬ ∃ row ∈ rows, result.applies row = true) :
    (rows.map fun row => row.take now result) = rows := by
  conv_rhs => rw [← List.map_id rows]
  refine List.map_congr_left fun row hrow => take_of_not_applies now ?_
  by_contra happ
  exact h ⟨row, hrow, by simpa using happ⟩

/-- The rows after the results of a batch, one after the other. -/
theorem applySamples_map : ∀ (results : List SampleResult) {rows : List Row}, UniqueIds rows →
    (applySamples now results rows).2 = rows.map (Row.takeAll now results)
  | [], rows, _ => (List.map_id rows).symm
  | result :: results, rows, hu => by
    have hnext : rows.map (Row.takeAll now (result :: results)) =
        (rows.map fun row => row.take now result).map (Row.takeAll now results) := by
      rw [List.map_map]
      rfl
    rw [hnext]
    unfold applySamples
    rw [applySampleToDocument_eq now hu]
    split_ifs with happ
    · exact applySamples_map results (hu.map fun row _ => (sampled_take now row result).keeps.1)
    · rw [map_take_of_none now happ]
      exact applySamples_map results hu

/-- No result of a batch applies exactly when no row takes one. -/
theorem applySamples_isEmpty : ∀ (results : List SampleResult) {rows : List Row}, UniqueIds rows →
    ((applySamples now results rows).1 = [] ↔ ∀ row ∈ rows, row.takeAll now results = row)
  | [], rows, _ => ⟨fun _ _ _ => rfl, fun _ => rfl⟩
  | result :: results, rows, hu => by
    unfold applySamples
    rw [applySampleToDocument_eq now hu]
    split_ifs with happ
    · refine ⟨fun h => absurd h (by simp), fun h => ?_⟩
      obtain ⟨row, hrow, happ⟩ := happ
      rw [take_of_takeAll_cons now results (h row hrow)] at happ
      cases happ
    · refine (applySamples_isEmpty results hu).trans (forall₂_congr fun row hrow => ?_)
      have hsame : row.take now result = row := by
        refine take_of_not_applies now ?_
        by_contra hcon
        exact happ ⟨row, hrow, by simpa using hcon⟩
      rw [takeAll_cons, hsame]

/-- A result applies only to a row that has not ended. -/
theorem mem_applySamples : ∀ (results : List SampleResult) {rows : List Row}, UniqueIds rows →
    ∀ {result : SampleResult}, result ∈ (applySamples now results rows).1 →
      ∃ row ∈ rows, row.observationId = result.observationId ∧ row.terminal = false
  | [], _, _, _, h => by cases h
  | head :: results, rows, hu, result, h => by
    unfold applySamples at h
    rw [applySampleToDocument_eq now hu] at h
    split_ifs at h with happ
    · rcases List.mem_cons.1 h with rfl | h
      · obtain ⟨row, hrow, happ⟩ := happ
        obtain ⟨hid, ht, -⟩ := SampleResult.applies_iff.1 happ
        exact ⟨row, hrow, hid.symm, ht⟩
      · obtain ⟨row', hrow', hid, ht⟩ := mem_applySamples results
          (hu.map fun row _ => (sampled_take now row head).keeps.1) h
        obtain ⟨row, hrow, rfl⟩ := List.mem_map.1 hrow'
        have hsampled := sampled_take now row head
        refine ⟨row, hrow, hsampled.keeps.1.symm.trans hid, ?_⟩
        by_contra hterminal
        have hterminal : row.terminal = true := by simpa using hterminal
        rw [hsampled.of_terminal hterminal, hterminal] at ht
        cases ht
    · exact mem_applySamples results hu h

/-! ## What a call saves and records -/

/-- `record_sample_batch`, with its side effects: the rows that are saved, and the snapshots that are
recorded as shadow trades. -/
def sampleBatchOutcome (results : List SampleResult) (rows : List Row) : List Row × List Row :=
  match recordSampleBatch results now rows with
  | .error _ => (rows, [])
  | .ok (applied, w) => (w.rows, sampleSideEffects [] applied)

/-- A batch that changes no row saves nothing new. -/
theorem recordSampleBatch_same (hu : UniqueIds rows) {results : List SampleResult}
    (hlen : results.length ≤ observationSampleBatchSize) (hall : ∀ row ∈ rows, row.takeAll now results = row) :
    recordSampleBatch results now rows = .ok ([], .keep rows) := by
  unfold recordSampleBatch recordSampleBatchMutate
  dsimp only
  rw [if_neg (not_lt.2 hlen), (applySamples_isEmpty now results hu).2 hall, if_pos (List.isEmpty_nil)]
  split_ifs <;> rfl

/-- A batch that changes a row saves the rows with their samples, through expiry and retention. -/
theorem recordSampleBatch_saved (hu : UniqueIds rows) {results : List SampleResult}
    (hlen : results.length ≤ observationSampleBatchSize) (hsome : ∃ row ∈ rows, row.takeAll now results ≠ row) :
    recordSampleBatch results now rows =
      let expired := expireObservationBacklog now (rows.map (Row.takeAll now results))
      .ok ((applySamples now results rows).1.filterMap (appliedSample expired), .retain expired) := by
  obtain ⟨row, hrow, hne⟩ := hsome
  have happlied : (applySamples now results rows).1 ≠ [] :=
    fun h => hne ((applySamples_isEmpty now results hu).1 h row hrow)
  have hresults : results ≠ [] := by
    rintro rfl
    exact happlied rfl
  unfold recordSampleBatch recordSampleBatchMutate
  rw [if_neg (by simpa using hresults), if_neg (not_lt.2 hlen)]
  dsimp only
  rw [if_neg (by simpa using happlied), applySamples_map now results hu]

theorem sampleBatch_same (hu : UniqueIds rows) {results : List SampleResult}
    (hlen : results.length ≤ observationSampleBatchSize) (hall : ∀ row ∈ rows, row.takeAll now results = row) :
    sampleBatchOutcome now results rows = (rows, []) := by
  unfold sampleBatchOutcome
  rw [recordSampleBatch_same now hu hlen hall]
  rfl

theorem sampleBatch_saved (hu : UniqueIds rows) {results : List SampleResult}
    (hlen : results.length ≤ observationSampleBatchSize) (hsome : ∃ row ∈ rows, row.takeAll now results ≠ row) :
    (sampleBatchOutcome now results rows).1 =
      archiveAndRetainObservations (expireObservationBacklog now (rows.map (Row.takeAll now results))) := by
  unfold sampleBatchOutcome
  rw [recordSampleBatch_saved now hu hlen hsome]
  rfl

/-- The snapshots are the rows that the results complete. -/
theorem mem_sampleBatch_trades (hu : UniqueIds rows) {results : List SampleResult}
    (hlen : results.length ≤ observationSampleBatchSize) {trade : Row} :
    trade ∈ (sampleBatchOutcome now results rows).2 ↔
      ∃ row ∈ rows, row.terminal = false ∧ row.takeAll now results = trade ∧ trade.status = .complete := by
  have hcomplete : ∀ {row : Row}, row.status = .complete → row.terminal = true := by
    intro row hstatus
    unfold Row.terminal
    rw [hstatus]
    rfl
  by_cases hall : ∀ row ∈ rows, row.takeAll now results = row
  · rw [sampleBatch_same now hu hlen hall]
    refine ⟨fun h => absurd h List.not_mem_nil, ?_⟩
    rintro ⟨row, hrow, ht, htake, hstatus⟩
    rw [hall row hrow] at htake
    rw [hcomplete (htake ▸ hstatus)] at ht
    cases ht
  · have hsome : ∃ row ∈ rows, row.takeAll now results ≠ row := by
      by_contra hnone
      exact hall fun row hrow => by_contra fun hne => hnone ⟨row, hrow, hne⟩
    have hu' := hu.takeAll now results
    unfold sampleBatchOutcome
    rw [recordSampleBatch_saved now hu hlen hsome]
    dsimp only
    set expired := expireObservationBacklog now (rows.map (Row.takeAll now results)) with hexpired
    have hids : UniqueIds expired := by
      unfold UniqueIds
      rw [hexpired, map_expire Row.observationId now fun _ => rfl]
      exact hu'
    -- the expiry completes no row
    have hold : ∀ row ∈ expired, row.status = .complete → ∃ old ∈ rows, old.takeAll now results = row := by
      intro row hrow hstatus
      rcases mem_expire hrow with hmem | ⟨x, -, -, rfl⟩
      · exact List.mem_map.1 hmem
      · cases hstatus
    constructor
    · intro h
      obtain ⟨item, hitem, hsnapshot⟩ := sampleSideEffects_mem h
      obtain ⟨result, hresult, hitem⟩ := List.mem_filterMap.1 hitem
      obtain ⟨row, hrow, rfl⟩ := Option.map_eq_some_iff.1 hitem
      dsimp only at hsnapshot
      split_ifs at hsnapshot with hstatus
      obtain rfl := Option.some.inj hsnapshot
      obtain ⟨hmem, hid⟩ := findRow_some hrow
      obtain ⟨old, holdmem, htake⟩ := hold row hmem hstatus
      obtain ⟨target, htarget, htid, ht⟩ := mem_applySamples now results hu hresult
      have hsame : old = target := by
        refine List.inj_on_of_nodup_map hu holdmem htarget ?_
        rw [htid, ← hid, ← htake, takeAll_id]
      exact ⟨old, holdmem, hsame ▸ ht, htake, hstatus⟩
    · rintro ⟨old, holdmem, ht, rfl, hstatus⟩
      set row := old.takeAll now results with hrow
      have hrowmem : row ∈ expired := by
        rcases expire_mem now (List.mem_map_of_mem (f := Row.takeAll now results) holdmem) with hmem | ⟨hexp, -⟩
        · exact hmem
        · unfold Row.expirable at hexp
          rw [hcomplete hstatus] at hexp
          cases hexp
      have hchanged : old.observationId ∈ (applySamples now results rows).1.map SampleResult.observationId := by
        by_contra hnone
        have hfind := applySamples_find now results hnone
        rw [applySamples_map now results hu, findRow_mem hu holdmem] at hfind
        have hself := findRow_mem hu' (List.mem_map_of_mem (f := Row.takeAll now results) holdmem)
        rw [takeAll_id, hfind] at hself
        rw [hrow, ← Option.some.inj hself] at hstatus
        rw [hcomplete hstatus] at ht
        cases ht
      obtain ⟨result, hresult, hrid⟩ := List.mem_map.1 hchanged
      have hitem : appliedSample expired result = some ⟨result, row.mint, row.routeType, some row⟩ := by
        have hfind := findRow_mem hids hrowmem
        rw [hrow, takeAll_id, ← hrow] at hfind
        unfold appliedSample
        rw [hrid, hfind]
        simp [hstatus]
      refine mem_sampleSideEffects (f := fun id => (findRow expired id).getD row) ?_
        (List.mem_filterMap.2 ⟨result, hresult, hitem⟩) rfl (by simp)
      intro item hitem snapshot hsnapshot
      obtain ⟨result', -, hitem⟩ := List.mem_filterMap.1 hitem
      obtain ⟨x, hx, rfl⟩ := Option.map_eq_some_iff.1 hitem
      dsimp only at hsnapshot ⊢
      split_ifs at hsnapshot
      rw [hx]
      exact (Option.some.inj hsnapshot).symm

end Ledger

end Aibot.Observation
