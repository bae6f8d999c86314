/-
What a batch of samples does to the rows it completes: each has every required sample, and is among
the side effects that follow the batch. The ids of the ledger stay distinct and clean.
-/
import Aibot.Observation.Effect
import Aibot.Observation.Loop

namespace Aibot.Observation

open Aibot.Risk

/-! ## The batch that completes a row -/

/-- A row that samples complete has every required one. -/
theorem Sampled.required {a b : Row} (h : Sampled a b) (ha : a.status ≠ .complete)
    (hb : b.status = .complete) : ∀ i ∈ b.trackingProfile.requiredIntervals, i ∈ b.completedIntervals := by
  induction h with
  | refl _ => exact absurd hb ha
  | @step row b result now _ _ _ hrest ih =>
    by_cases hdone : row.trackingProfile.requiredIntervals.all
        (· ∈ (row.samples ++ [result.sample now row]).map Sample.interval) = true
    · -- the sample completes the row, which takes no other after it
      have hterminal : (row.sampled (result.sample now row) now).terminal = true := by
        unfold Row.terminal Row.sampled
        simp only [hdone, if_true]
        rfl
      rw [hrest.of_terminal hterminal]
      intro i hi
      exact of_decide_eq_true (List.all_eq_true.1 hdone i hi)
    · refine ih ?_ hb
      unfold Row.sampled
      simp only [hdone, Bool.false_eq_true, if_false]
      exact ha

/-- A row of which no sample applies is left as it is. -/
theorem applySamples_find (now : Int) {id : ObservationId} : ∀ (results : List SampleResult) {rows : List Row},
    id ∉ (applySamples now results rows).1.map SampleResult.observationId →
    findRow (applySamples now results rows).2 id = findRow rows id
  | [], rows, _ => rfl
  | result :: results, rows, h => by
    unfold applySamples at h ⊢
    cases happ : applySampleToDocument result now rows with
    | none =>
      rw [happ] at h
      exact applySamples_find now results h
    | some rows' =>
      rw [happ] at h
      simp only [List.map_cons, List.mem_cons, not_or] at h
      show findRow (applySamples now results rows').2 id = _
      rw [applySamples_find now results h.2]
      unfold applySampleToDocument at happ
      split at happ
      · cases happ
      · split_ifs at happ
        obtain rfl := Option.some.inj happ
        apply find?_modifyFirst
        intro x hx
        have hx : x.observationId = result.observationId := by simpa using hx
        have hne : x.observationId ≠ id := fun he => h.1 (he.symm.trans hx)
        exact ⟨by simpa using hne, by simpa [Row.sampled] using hne⟩

/-- Every snapshot of an applied sample is recorded: `f` gives the snapshot of each observation. -/
theorem mem_sampleSideEffects {f : ObservationId → Row} {applied : List AppliedSample}
    {completedIds : List ObservationId} {item : AppliedSample} {row : Row}
    (hsnap : ∀ item ∈ applied, ∀ row, item.completedSnapshot = some row → row = f item.result.observationId)
    (hmem : item ∈ applied) (hrow : item.completedSnapshot = some row)
    (hid : item.result.observationId ∉ completedIds) : row ∈ sampleSideEffects completedIds applied := by
  induction applied generalizing completedIds with
  | nil => cases hmem
  | cons head applied ih =>
    have htail : ∀ {ids}, item.result.observationId ∉ ids → item ∈ applied → row ∈ sampleSideEffects ids applied :=
      fun hids hmem => ih (fun item hitem => hsnap item (List.mem_cons_of_mem _ hitem)) hmem hids
    unfold sampleSideEffects
    cases hhead : head.completedSnapshot with
    | none =>
      rcases List.mem_cons.1 hmem with rfl | hmem
      · rw [hhead] at hrow; cases hrow
      · exact htail hid hmem
    | some first =>
      dsimp only
      by_cases hsame : item.result.observationId = head.result.observationId
      · rw [if_neg (hsame ▸ hid), hsnap item hmem row hrow, hsame,
          ← hsnap head List.mem_cons_self first hhead]
        exact List.mem_cons_self
      · have hmem : item ∈ applied := (List.mem_cons.1 hmem).resolve_left fun h => hsame (h ▸ rfl)
        split_ifs
        · exact htail hid hmem
        · refine List.mem_cons_of_mem _ (htail ?_ hmem)
          simp only [List.mem_cons, not_or]
          exact ⟨hsame, hid⟩

section Batch

variable {rows : List Row}

theorem mem_newlyCompleted {touched : List Row} {id : ObservationId} (h : id ∈ newlyCompleted rows touched) :
    ∃ row ∈ touched, row.observationId = id ∧ row.status = .complete ∧ row.quoteStatus = "EXECUTABLE" ∧
      ∃ old, findRow rows id = some old ∧ old.status ≠ .complete := by
  obtain ⟨row, hrow, rfl⟩ := List.mem_map.1 h
  obtain ⟨hmem, hrow⟩ := List.mem_filter.1 hrow
  simp only [Bool.and_eq_true, decide_eq_true_eq] at hrow
  obtain ⟨⟨hstatus, hquote⟩, hold⟩ := hrow
  obtain ⟨old, hfind, hne⟩ := (Option.any_eq_true _ _).1 hold
  exact ⟨row, hmem, rfl, hstatus, hquote, old, hfind, of_decide_eq_true hne⟩

theorem newlyCompleted_self (hu : UniqueIds rows) : newlyCompleted rows rows = [] := by
  rw [List.eq_nil_iff_forall_not_mem]
  intro id hid
  obtain ⟨row, hrow, rfl, hstatus, -, old, hold, hne⟩ := mem_newlyCompleted hid
  rw [findRow_mem hu hrow] at hold
  obtain rfl := Option.some.inj hold
  exact hne hstatus

/-- A batch writes nothing, or the rows with its samples on them, through expiry and retention. -/
theorem recordSampleBatch_cases {results : List SampleResult} {now : Int} {applied : List AppliedSample}
    {w : Write} (h : recordSampleBatch results now rows = .ok (applied, w)) :
    applied = [] ∧ w = .keep rows ∨
      let expired := expireObservationBacklog now (applySamples now results rows).2
      applied = (applySamples now results rows).1.filterMap (appliedSample expired) ∧ w = .retain expired := by
  unfold recordSampleBatch at h
  split_ifs at h
  · obtain ⟨rfl, rfl⟩ := Prod.mk.inj (Except.ok.inj h)
    exact .inl ⟨rfl, rfl⟩
  · unfold recordSampleBatchMutate at h
    dsimp only at h
    split_ifs at h
    all_goals obtain ⟨rfl, rfl⟩ := Prod.mk.inj (Except.ok.inj h)
    · exact .inl ⟨rfl, rfl⟩
    · exact .inr ⟨rfl, rfl⟩

/-- A row that a batch completes is one of the rows with its samples on them, and one of its samples
applies to it. -/
theorem completed_by_sample (hu : UniqueIds rows) {results : List SampleResult} {now : Int} {row : Row}
    (hrow : row ∈ expireObservationBacklog now (applySamples now results rows).2)
    (hstatus : row.status = .complete) {old : Row} (hold : findRow rows row.observationId = some old)
    (hne : old.status ≠ .complete) :
    Sampled old row ∧ row.observationId ∈ (applySamples now results rows).1.map SampleResult.observationId := by
  obtain ⟨g, hg, hx⟩ := applySamples_rows now results hu
  -- the expiry completes no row, so the row is as the samples left it
  have hmem : row ∈ (applySamples now results rows).2 := by
    rcases mem_expire hrow with hmem | ⟨x, -, -, rfl⟩
    · exact hmem
    · cases hstatus
  constructor
  · rw [hx] at hmem
    obtain ⟨x, hxmem, rfl⟩ := List.mem_map.1 hmem
    rw [(hg x hxmem).keeps.1, findRow_mem hu hxmem] at hold
    exact Option.some.inj hold ▸ hg x hxmem
  · by_contra hnone
    have hkept := applySamples_find now results hnone
    have hu' := hu.map fun x hx => (hg x hx).keeps.1
    rw [hx] at hmem hkept
    rw [findRow_mem hu' hmem, hold] at hkept
    exact hne (Option.some.inj hkept ▸ hstatus)

/-- A row that a batch completes is among its side effects, and can be traded. -/
theorem batch_completes (hu : UniqueIds rows) (hids : ∀ row ∈ rows, strip row.observationId ≠ "")
    {results : List SampleResult} {now : Int} {applied : List AppliedSample} {w : Write}
    (h : recordSampleBatch results now rows = .ok (applied, w)) {id : ObservationId}
    (hid : id ∈ newlyCompleted rows w.touched) :
    ∃ row ∈ sampleSideEffects [] applied, row.observationId = id ∧ row.tradable := by
  have heff := write_effect hu (.sampleBatch results now)
  simp only [ObservationOp.write, h] at heff
  replace heff : Effect rows (.sampleBatch results now) w.touched := heff
  rcases recordSampleBatch_cases h with ⟨-, rfl⟩ | ⟨rfl, rfl⟩
  · rw [Write.touched_keep, newlyCompleted_self hu] at hid
    cases hid
  rw [Write.touched_retain] at hid heff
  set expired := expireObservationBacklog now (applySamples now results rows).2
  obtain ⟨row, hrow, rfl, hstatus, hquote, old, hold, hne⟩ := mem_newlyCompleted hid
  obtain ⟨hsampled, happlied⟩ := completed_by_sample hu hrow hstatus hold hne
  have hstripped : strip row.observationId ≠ "" := by
    rw [← (findRow_some hold).2]
    exact hids old (findRow_some hold).1
  have hrequired := hsampled.required hne hstatus
  rw [← shadowIntervals_eq] at hrequired
  refine ⟨row, ?_, rfl, hstatus, hquote, hrequired, hstripped⟩
  obtain ⟨result, hresult, hrid⟩ := List.mem_map.1 happlied
  have hitem : appliedSample expired result = some ⟨result, row.mint, row.routeType, some row⟩ := by
    unfold appliedSample
    rw [hrid, findRow_mem (heff.unique hu) hrow]
    simp [hstatus]
  refine mem_sampleSideEffects (f := fun id => (findRow expired id).getD row) ?_
    (List.mem_filterMap.2 ⟨result, hresult, hitem⟩) rfl (by simp)
  intro item hitem snapshot hsnapshot
  obtain ⟨result', -, hitem⟩ := List.mem_filterMap.1 hitem
  obtain ⟨x, hx, rfl⟩ := Option.map_eq_some_iff.1 hitem
  dsimp only at hsnapshot ⊢
  split_ifs at hsnapshot
  rw [hx]
  exact (Option.some.inj hsnapshot).symm

end Batch

/-- What is recorded is a row of the batch. -/
theorem sampleSideEffects_mem {applied : List AppliedSample} {completedIds : List ObservationId} {row : Row}
    (h : row ∈ sampleSideEffects completedIds applied) :
    ∃ item ∈ applied, item.completedSnapshot = some row := by
  induction applied generalizing completedIds with
  | nil => cases h
  | cons head applied ih =>
    have hskip : ∀ {ids}, row ∈ sampleSideEffects ids applied →
        ∃ item ∈ head :: applied, item.completedSnapshot = some row := by
      intro ids h
      obtain ⟨item, hitem, hrow⟩ := ih h
      exact ⟨item, List.mem_cons_of_mem _ hitem, hrow⟩
    unfold sampleSideEffects at h
    cases hhead : head.completedSnapshot with
    | none =>
      rw [hhead] at h
      exact hskip h
    | some first =>
      rw [hhead] at h
      dsimp only at h
      split_ifs at h
      · exact hskip h
      · rcases List.mem_cons.1 h with rfl | h
        · exact ⟨head, List.mem_cons_self, hhead⟩
        · exact hskip h

/-! ## Identities -/

/-- An id without surrounding blanks, under which the trade of an observation is filed. -/
def CleanId (id : ObservationId) : Prop := strip id = id ∧ id ≠ ""

/-- The ids of the ledger: no two alike, and no blanks around them. -/
structure Identified (rows : List Row) : Prop where
  unique : UniqueIds rows
  clean : ∀ row ∈ rows, CleanId row.observationId

/-- A call that creates no observation with blanks around its id. -/
def ObservationOp.clean : ObservationOp → Prop
  | .discovery r _ => strip r.observationId = r.observationId
  | .decision r _ => strip r.observationId = r.observationId
  | _ => True

instance : (op : ObservationOp) → Decidable op.clean
  | .discovery .. | .decision .. => inferInstanceAs (Decidable (_ = _))
  | .finalize .. | .mark .. | .sampleAttempt .. | .sampleBatch .. | .reconcile .. => .isTrue trivial

theorem observationKey_ne_empty (sourceSignature sourceWallet : String) (mint : Mint) :
    observationKey sourceSignature sourceWallet mint ≠ "" := by
  intro h
  have hlen := congrArg String.length h
  simp [observationKey, toString, String.length_append] at hlen

theorem Identified.sublist {rows rows' : List Row} (h : Identified rows) (hsub : rows'.Sublist rows) :
    Identified rows' :=
  ⟨h.unique.sublist (hsub.map _), fun row hrow => h.clean row (hsub.subset hrow)⟩

/-- Rows with the same ids. -/
theorem Identified.congr {rows rows' : List Row} (h : Identified rows)
    (hids : rows'.map Row.observationId = rows.map Row.observationId) : Identified rows' := by
  refine ⟨by unfold UniqueIds; rw [hids]; exact h.unique, fun row hrow => ?_⟩
  have hmem : row.observationId ∈ rows.map Row.observationId := hids ▸ List.mem_map_of_mem hrow
  obtain ⟨old, hold, hid⟩ := List.mem_map.1 hmem
  rw [← hid]
  exact h.clean old hold

theorem Identified.touched {rows : List Row} (h : Identified rows) {op : ObservationOp} (hop : op.clean) :
    Identified (op.write rows).touched := by
  have heff := write_effect h.unique op
  refine ⟨heff.unique h.unique, fun row'' hrow'' => ?_⟩
  rcases heff.backward hrow'' with ⟨row, hrow, row', hedit, haged⟩ | ⟨row', hnew, haged⟩
  · rw [haged.keeps.1, hedit.observationId]
    exact h.clean row hrow
  · rw [haged.keeps.1]
    cases hnew with
    | discovered => exact ⟨hop, observationKey_ne_empty _ _ _⟩
    | decided => exact ⟨hop, observationKey_ne_empty _ _ _⟩

theorem Identified.write {rows : List Row} (h : Identified rows) {op : ObservationOp} (hop : op.clean) :
    Identified (op.write rows).rows :=
  (h.touched hop).sublist (Write.rows_sublist _)

theorem Identified.markers {rows : List Row} (h : Identified rows) (snapshots : List Row) :
    Identified (persistArchiveMarkers snapshots rows).rows :=
  (h.congr (map_persist snapshots rows)).sublist (Write.rows_sublist _)

end Aibot.Observation
