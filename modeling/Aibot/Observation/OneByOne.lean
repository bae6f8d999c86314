/-
`record_sample` for the results of a batch one by one: each call expires and retains, where the batch
does it once, at its end. What the calls leave once the first of them has let the backlog expire, and
that it depends on their clock readings only in the clock readings it leaves.
-/
import Aibot.Observation.OverCap

namespace Aibot.Observation

open Aibot.Risk

/-! ## The calls one by one -/

/-- `record_sample`, a batch of one. -/
def recordSample (now : Int) (result : SampleResult) (rows : List Row) : List Row × List Row :=
  sampleBatchOutcome now [result] rows

/-- `record_sample` for each result in order, each with its clock reading: the rows that are saved, and
all snapshots that are recorded. -/
def recordSamples : List (SampleResult × Int) → List Row → List Row × List Row
  | [], rows => (rows, [])
  | (result, now) :: calls, rows =>
    let first := recordSample now result rows
    let rest := recordSamples calls first.1
    (rest.1, first.2 ++ rest.2)

/-! ## What the later samples must leave alone -/

/-- The ledger after the first sample of a batch, and its later results. -/
structure Undisturbed (now : Int) (rows : List Row) (later : List SampleResult) : Prop where
  /-- Where rows are beyond the limit of waiting ones, no later sample completes a waiting row. -/
  waiting : backlog rows ≠ [] → ∀ row ∈ rows, row.expirable = true → (row.takeAll now later).expirable = true
  /-- A later sample is for one of these only if the retention drops it in the end. -/
  backlog : ∀ row ∈ backlog rows, row.takeAll now later ≠ row →
    OverCap (expireObservationBacklog now (rows.map (Row.takeAll now later))) row.observationId
  /-- What is over the cap after some of the samples is so after all of them. -/
  overCap : ∀ earlier, earlier <+: later → ∀ id,
    OverCap (expireObservationBacklog now (rows.map (Row.takeAll now earlier))) id →
      OverCap (expireObservationBacklog now (rows.map (Row.takeAll now later))) id

/-- The results of a batch whose later samples are undisturbed by the first one that applies. -/
def SampledApart (now : Int) : List SampleResult → List Row → Prop
  | [], _ => True
  | result :: results, rows =>
    if ∃ row ∈ rows, result.applies row = true then Undisturbed now (rows.map fun row => row.take now result) results
    else SampledApart now results rows

/-! ## Expiry now or at the end -/

section Expiry

variable {rows : List Row} (now : Int) {later earlier : List SampleResult}

/-- The same rows are in the backlog before and after samples that complete no waiting row of it. -/
theorem backlog_takeAll
    (hwait : backlog rows ≠ [] → ∀ row ∈ rows, row.expirable = true → (row.takeAll now later).expirable = true)
    (hearlier : earlier <+: later) :
    (backlog (rows.map (Row.takeAll now earlier))).map Row.observationId = (backlog rows).map Row.observationId := by
  have hle : ((rows.map (Row.takeAll now earlier)).filter Row.expirable).length ≤
      (rows.filter Row.expirable).length := by
    rw [List.filter_map, List.length_map, ← List.countP_eq_length_filter, ← List.countP_eq_length_filter]
    exact List.countP_mono_left fun row _ h => expirable_of_takeAll now earlier h
  by_cases hempty : backlog rows = []
  · rw [hempty, backlog_eq_nil.2 (hle.trans (backlog_eq_nil.1 hempty))]
  · obtain ⟨rest, rfl⟩ := hearlier
    have hfilter : (rows.map (Row.takeAll now earlier)).filter Row.expirable =
        (rows.filter Row.expirable).map (Row.takeAll now earlier) := by
      rw [List.filter_map]
      refine congrArg (List.map _) (List.filter_congr fun row hrow => ?_)
      rw [Bool.eq_iff_iff]
      refine ⟨expirable_of_takeAll now earlier, fun h => ?_⟩
      have hend := hwait hempty row hrow h
      rw [takeAll_append] at hend
      exact expirable_of_takeAll now rest hend
    unfold Observation.backlog
    rw [hfilter, List.length_map, ← List.map_take, List.map_map]
    exact List.map_congr_left fun row _ => takeAll_id now earlier row

/-- The ledger where the backlog expires first, and where it expires last. -/
theorem expire_first (hu : UniqueIds rows) : (expireObservationBacklog now rows).map (Row.takeAll now later) =
    rows.map fun row => if row.observationId ∈ (backlog rows).map Row.observationId then row.expire now
      else row.takeAll now later := by
  rw [expire_eq_map now hu, List.map_map]
  refine List.map_congr_left fun row _ => ?_
  show Row.takeAll now later (ite _ _ _) = _
  split_ifs
  · exact takeAll_of_terminal now later rfl
  · rfl

theorem expire_last (hu : UniqueIds rows)
    (hwait : backlog rows ≠ [] → ∀ row ∈ rows, row.expirable = true → (row.takeAll now later).expirable = true)
    (hearlier : earlier <+: later) : expireObservationBacklog now (rows.map (Row.takeAll now earlier)) =
      rows.map fun row => if row.observationId ∈ (backlog rows).map Row.observationId then
        (row.takeAll now earlier).expire now else row.takeAll now earlier := by
  rw [expire_eq_map now (hu.takeAll now earlier), backlog_takeAll now hwait hearlier, List.map_map]
  refine List.map_congr_left fun row _ => ?_
  show ite ((row.takeAll now earlier).observationId ∈ _) _ _ = _
  rw [takeAll_id]

theorem completed_expire {row : Row} (h : row.expirable = true) (results : List SampleResult) :
    ((row.takeAll now results).expire now).completed = true := by
  have hpaper : row.paperExperimentStatus ≠ .opened := by
    unfold Row.expirable at h
    simpa using (Bool.and_eq_true_iff.1 h).2
  unfold Row.completed
  show (Status.terminal .expiredUnsampled && decide ((row.takeAll now results).paperExperimentStatus ≠ .opened)) = true
  rw [takeAll_paper]
  exact decide_eq_true hpaper

/-- The same rows are over the cap either way. -/
theorem overCap_expire (hu : UniqueIds rows)
    (hwait : backlog rows ≠ [] → ∀ row ∈ rows, row.expirable = true → (row.takeAll now later).expirable = true)
    (hearlier : earlier <+: later) (id : ObservationId) :
    OverCap (expireObservationBacklog now (rows.map (Row.takeAll now earlier))) id ↔
      OverCap ((expireObservationBacklog now rows).map (Row.takeAll now earlier)) id := by
  have hflags : (expireObservationBacklog now (rows.map (Row.takeAll now earlier))).map
        (fun row => (row.observationId, row.completed, row.archived)) =
      ((expireObservationBacklog now rows).map (Row.takeAll now earlier)).map
        fun row => (row.observationId, row.completed, row.archived) := by
    rw [expire_last now hu hwait hearlier, expire_first now hu, List.map_map, List.map_map]
    refine List.map_congr_left fun row hrow => ?_
    simp only [Function.comp_apply]
    split_ifs with hback
    · obtain ⟨old, hold, hid⟩ := List.mem_map.1 hback
      obtain ⟨hmem, hexp⟩ := mem_backlog hold
      obtain rfl := List.inj_on_of_nodup_map hu hmem hrow hid
      have hfirst : (old.expire now).completed = true := completed_expire now hexp []
      rw [completed_expire now hexp earlier, hfirst]
      exact Prod.ext (takeAll_id now earlier old) (Prod.ext rfl (takeAll_archived now earlier old))
    · rfl
  exact ⟨fun h => h.congr hflags, fun h => h.congr hflags.symm⟩

/-- Two changes of the rows that agree on those that are kept. -/
theorem filter_agree {dropped : ObservationId → Prop} [DecidablePred dropped] {e a : Row → Row}
    (he : ∀ row ∈ rows, (e row).observationId = row.observationId)
    (ha : ∀ row ∈ rows, (a row).observationId = row.observationId)
    (h : ∀ row ∈ rows, ¬ dropped row.observationId → e row = a row) :
    (rows.map e).filter (fun row => decide (¬ dropped row.observationId)) =
      (rows.map a).filter fun row => decide (¬ dropped row.observationId) := by
  have hfilter : ∀ {g : Row → Row}, (∀ row ∈ rows, (g row).observationId = row.observationId) →
      (rows.map g).filter (fun row => decide (¬ dropped row.observationId)) =
        (rows.filter fun row => decide (¬ dropped row.observationId)).map g := by
    intro g hg
    rw [List.filter_map]
    refine congrArg (List.map g) (List.filter_congr fun row hrow => ?_)
    simp [hg row hrow]
  rw [hfilter he, hfilter ha]
  refine List.map_congr_left fun row hrow => ?_
  obtain ⟨hmem, hkept⟩ := List.mem_filter.1 hrow
  exact h row hmem (of_decide_eq_true hkept)

/-- Rows of the backlog that take samples are dropped, so it is the same to expire them first. -/
theorem retain_expire (hu : UniqueIds rows)
    (hwait : backlog rows ≠ [] → ∀ row ∈ rows, row.expirable = true → (row.takeAll now later).expirable = true)
    (hback : ∀ row ∈ backlog rows, row.takeAll now later ≠ row →
      OverCap (expireObservationBacklog now (rows.map (Row.takeAll now later))) row.observationId) :
    archiveAndRetainObservations (expireObservationBacklog now (rows.map (Row.takeAll now later))) =
      archiveAndRetainObservations ((expireObservationBacklog now rows).map (Row.takeAll now later)) := by
  have hearlier : later <+: later := List.prefix_rfl
  have hover := overCap_expire now hu hwait hearlier
  rw [archiveAndRetain_eq_filter ((hu.takeAll now later).expire now),
    archiveAndRetain_eq_filter ((hu.expire now).takeAll now later)]
  simp only [hover] at hback ⊢
  rw [expire_last now hu hwait hearlier]
  refine (filter_agree (fun row _ => ?_) (fun row _ => ?_) fun row hrow hkept => ?_).trans
    (congrArg (List.filter _) (expire_first now hu).symm)
  · split_ifs <;> exact takeAll_id now later row
  · split_ifs
    · rfl
    · exact takeAll_id now later row
  · split_ifs with hbacklog
    · obtain ⟨old, hold, hid⟩ := List.mem_map.1 hbacklog
      obtain rfl := List.inj_on_of_nodup_map hu (mem_backlog hold).1 hrow hid
      by_cases hsame : old.takeAll now later = old
      · rw [hsame]
      · exact absurd (hback old hold hsame) hkept
    · rfl

end Expiry

/-! ## The calls after the expiry -/

section Calls

variable (now : Int)

theorem one_le_batch (result : SampleResult) : [result].length ≤ observationSampleBatchSize := by
  unfold observationSampleBatchSize
  simp

section One

variable {rows : List Row} {result : SampleResult}

theorem recordSample_same (hu : UniqueIds rows) (h : ¬ ∃ row ∈ rows, result.applies row = true) :
    recordSample now result rows = (rows, []) := by
  refine sampleBatch_same now hu (one_le_batch result) fun row hrow => ?_
  refine take_of_not_applies now ?_
  by_contra happ
  exact h ⟨row, hrow, by simpa using happ⟩

theorem recordSample_saved (hu : UniqueIds rows) (h : ∃ row ∈ rows, result.applies row = true) :
    (recordSample now result rows).1 =
      archiveAndRetainObservations (expireObservationBacklog now (rows.map fun row => row.take now result)) := by
  obtain ⟨row, hrow, happ⟩ := h
  refine sampleBatch_saved now hu (one_le_batch result) ⟨row, hrow, fun hsame => ?_⟩
  have hone := length_samples_take now happ
  rw [show row.take now result = row from hsame] at hone
  omega

theorem mem_recordSample_trades (hu : UniqueIds rows) {trade : Row} : trade ∈ (recordSample now result rows).2 ↔
    ∃ row ∈ rows, row.terminal = false ∧ row.take now result = trade ∧ trade.status = .complete :=
  mem_sampleBatch_trades now hu (one_le_batch result)

theorem UniqueIds.take (hu : UniqueIds rows) (result : SampleResult) :
    UniqueIds (rows.map fun row => row.take now result) :=
  hu.map fun row _ => (sampled_take now row result).keeps.1

/-- A call adds no observation. -/
theorem recordSample_ids (hu : UniqueIds rows) (result : SampleResult) :
    ((recordSample now result rows).1.map Row.observationId).Sublist (rows.map Row.observationId) := by
  by_cases happ : ∃ row ∈ rows, result.applies row = true
  · have hids : (expireObservationBacklog now (rows.map fun row => row.take now result)).map Row.observationId =
        rows.map Row.observationId := by
      rw [map_expire Row.observationId now fun _ => rfl]
      exact map_ids fun row _ => (sampled_take now row result).keeps.1
    rw [recordSample_saved now hu happ, ← hids]
    exact (retain_sublist _).map _
  · rw [recordSample_same now hu happ]

theorem UniqueIds.recordSample (hu : UniqueIds rows) (result : SampleResult) :
    UniqueIds (recordSample now result rows).1 :=
  hu.sublist (recordSample_ids now hu result)

/-- A row that the retention drops has ended, so it takes no result. -/
theorem applies_retained (hu : UniqueIds rows) :
    (∃ row ∈ archiveAndRetainObservations rows, result.applies row = true) ↔
      ∃ row ∈ rows, result.applies row = true := by
  constructor
  · rintro ⟨row, hrow, happ⟩
    exact ⟨row, (retain_sublist rows).subset hrow, happ⟩
  · rintro ⟨row, hrow, happ⟩
    refine ⟨row, (mem_archiveAndRetain hu).2 ⟨hrow, fun hover => ?_⟩, happ⟩
    obtain ⟨row', hrow', hid, hc⟩ := hover.mem
    obtain rfl := List.inj_on_of_nodup_map hu hrow' hrow hid
    unfold Row.completed at hc
    rw [(SampleResult.applies_iff.1 happ).2.1] at hc
    cases hc

/-- What stays over the cap to the end is over it after the next sample. -/
theorem overCap_next (hu : UniqueIds rows) {later : List SampleResult} {id : ObservationId} (h : OverCap rows id)
    (hend : OverCap (rows.map (Row.takeAll now (result :: later))) id) :
    OverCap (rows.map fun row => row.take now result) id := by
  have hterminal : ∀ {row : Row}, row.completed = true → row.terminal = true := by
    intro row hc
    unfold Row.completed at hc
    exact (Bool.and_eq_true_iff.1 hc).1
  have hnext : rows.map (Row.takeAll now (result :: later)) =
      (rows.map fun row => row.take now result).map (Row.takeAll now later) := by
    rw [List.map_map]
    rfl
  obtain ⟨row, hrow, hid, hc⟩ := h.mem
  have hsame : row.take now result = row := (sampled_take now row result).of_terminal (hterminal hc)
  rw [hnext] at hend
  refine hend.of_map (hu.take now result) (fun row _ => takeAll_id now later row)
    (fun row _ hc => takeAll_of_terminal now later (hterminal hc))
    (List.mem_map.2 ⟨row, hrow, hsame⟩) hid hc

/-- A call on what the retention has left is the retention of the rows with the sample on. -/
theorem recordSample_retained (hu : UniqueIds rows)
    (hle : (rows.filter Row.expirable).length ≤ maxActiveObservations) {later : List SampleResult}
    (h : ∀ id, OverCap rows id → OverCap (rows.map (Row.takeAll now (result :: later))) id) :
    (recordSample now result (archiveAndRetainObservations rows)).1 =
      archiveAndRetainObservations (rows.map fun row => row.take now result) := by
  have hu' : UniqueIds (archiveAndRetainObservations rows) := hu.sublist ((retain_sublist rows).map _)
  by_cases happ : ∃ row ∈ rows, result.applies row = true
  · rw [recordSample_saved now hu' ((applies_retained hu).2 happ)]
    have hkept : (archiveAndRetainObservations rows).map (fun row => row.take now result) =
        (rows.map fun row => row.take now result).filter fun row => !decide (OverCap rows row.observationId) := by
      rw [archiveAndRetain_eq_filter hu, List.filter_map]
      refine congrArg (List.map _) (List.filter_congr fun row _ => ?_)
      show decide (¬ OverCap rows row.observationId) = !decide (OverCap rows (row.take now result).observationId)
      rw [(sampled_take now row result).keeps.1, decide_not]
    have hwaiting : (((archiveAndRetainObservations rows).map fun row => row.take now result).filter
        Row.expirable).length ≤ maxActiveObservations := by
      refine le_trans ?_ hle
      rw [List.filter_map, List.length_map, ← List.countP_eq_length_filter, ← List.countP_eq_length_filter]
      refine le_trans (List.countP_mono_left fun row _ hexp => ?_) (retain_sublist rows).countP_le
      exact expirable_of_takeAll now [result] hexp
    rw [expire_of_le now hwaiting, hkept]
    refine archiveAndRetain_gone (hu.take now result) _ fun row hrow hgone => ?_
    have hover := of_decide_eq_true hgone
    exact overCap_next now hu hover (h _ hover)
  · rw [recordSample_same now hu' (mt (applies_retained hu).1 happ), map_take_of_none now happ]

end One

theorem recordSamples_ids : ∀ (calls : List (SampleResult × Int)) {rows : List Row}, UniqueIds rows →
    ((recordSamples calls rows).1.map Row.observationId).Sublist (rows.map Row.observationId)
  | [], _, _ => List.Sublist.refl _
  | (result, now) :: calls, _, hu =>
    (recordSamples_ids calls (hu.recordSample now result)).trans (recordSample_ids now hu result)

/-- The calls of the results, all with one clock reading. -/
def callsAt (results : List SampleResult) : List (SampleResult × Int) := results.map fun result => (result, now)

section Run

variable {rows : List Row} {result : SampleResult} {results : List SampleResult}

theorem takeAll_map_cons : rows.map (Row.takeAll now (result :: results)) =
    (rows.map fun row => row.take now result).map (Row.takeAll now results) := by
  rw [List.map_map]
  rfl

theorem waiting_take (hle : (rows.filter Row.expirable).length ≤ maxActiveObservations) (result : SampleResult) :
    ((rows.map fun row => row.take now result).filter Row.expirable).length ≤ maxActiveObservations := by
  refine le_trans ?_ hle
  rw [List.filter_map, List.length_map, ← List.countP_eq_length_filter, ← List.countP_eq_length_filter]
  exact List.countP_mono_left fun row _ hexp => expirable_of_takeAll now [result] hexp

/-- What is over the cap after some of the results is so after all of them. -/
def StaysOverCap (results : List SampleResult) (rows : List Row) : Prop :=
  ∀ earlier, earlier <+: results → ∀ id, OverCap (rows.map (Row.takeAll now earlier)) id →
    OverCap (rows.map (Row.takeAll now results)) id

theorem StaysOverCap.first (h : StaysOverCap now results rows) {id : ObservationId} (hover : OverCap rows id) :
    OverCap (rows.map (Row.takeAll now results)) id :=
  h [] List.nil_prefix id (by rwa [show rows.map (Row.takeAll now []) = rows from List.map_id rows])

theorem StaysOverCap.next (h : StaysOverCap now (result :: results) rows) :
    StaysOverCap now results (rows.map fun row => row.take now result) := by
  intro earlier hearlier id hover
  rw [← takeAll_map_cons] at hover ⊢
  exact h (result :: earlier) (List.cons_prefix_cons.2 ⟨rfl, hearlier⟩) id hover

theorem StaysOverCap.cons (hfirst : ∀ id, OverCap rows id → OverCap (rows.map (Row.takeAll now (result :: results))) id)
    (h : StaysOverCap now results (rows.map fun row => row.take now result)) :
    StaysOverCap now (result :: results) rows := by
  intro earlier hearlier id hover
  cases earlier with
  | nil =>
    rw [show rows.map (Row.takeAll now []) = rows from List.map_id rows] at hover
    exact hfirst id hover
  | cons head earlier =>
    obtain ⟨rfl, hrest⟩ := List.cons_prefix_cons.1 hearlier
    rw [takeAll_map_cons] at hover ⊢
    exact h earlier hrest id hover

end Run

/-- Where nothing comes under the cap again, the calls leave what the retention leaves at the end. -/
theorem recordSamples_retained : ∀ (results : List SampleResult) {rows : List Row}, UniqueIds rows →
    (rows.filter Row.expirable).length ≤ maxActiveObservations → StaysOverCap now results rows →
    (recordSamples (callsAt now results) (archiveAndRetainObservations rows)).1 =
      archiveAndRetainObservations (rows.map (Row.takeAll now results))
  | [], rows, _, _, _ => by rw [show rows.map (Row.takeAll now []) = rows from List.map_id rows]; rfl
  | result :: results, rows, hu, hle, h => by
    show (recordSamples (callsAt now results) (recordSample now result (archiveAndRetainObservations rows)).1).1 = _
    rw [recordSample_retained now hu hle fun id => h.first now, takeAll_map_cons]
    exact recordSamples_retained results (hu.take now result) (waiting_take now hle result) (h.next now)

/-- And only there, even of the ids. -/
theorem staysOverCap_of_ids : ∀ (results : List SampleResult) {rows : List Row}, UniqueIds rows →
    (rows.filter Row.expirable).length ≤ maxActiveObservations →
    (recordSamples (callsAt now results) (archiveAndRetainObservations rows)).1.map Row.observationId =
      (archiveAndRetainObservations (rows.map (Row.takeAll now results))).map Row.observationId →
    StaysOverCap now results rows
  | [], rows, _, _, _ => by
    intro earlier hearlier id hover
    rwa [List.prefix_nil.1 hearlier] at hover
  | result :: results, rows, hu, hle, h => by
    -- what the retention drops first never comes back
    have hfirst : ∀ id, OverCap rows id → OverCap (rows.map (Row.takeAll now (result :: results))) id := by
      intro id hover
      by_contra hkept
      obtain ⟨row, hrow, hid, -⟩ := hover.mem
      have hend : row.takeAll now (result :: results) ∈
          archiveAndRetainObservations (rows.map (Row.takeAll now (result :: results))) := by
        refine (mem_archiveAndRetain (hu.takeAll now _)).2 ⟨List.mem_map_of_mem hrow, ?_⟩
        rwa [takeAll_id, hid]
      have hmem := List.mem_map_of_mem (f := Row.observationId) hend
      rw [← h, takeAll_id, hid] at hmem
      have hback := (recordSamples_ids _ (hu.sublist ((retain_sublist rows).map _))).subset hmem
      obtain ⟨row', hrow', hid'⟩ := List.mem_map.1 hback
      exact ((mem_archiveAndRetain hu).1 hrow').2 (hid' ▸ hover)
    refine StaysOverCap.cons now hfirst
      (staysOverCap_of_ids results (hu.take now result) (waiting_take now hle result) ?_)
    rw [← recordSample_retained now hu hle hfirst, ← takeAll_map_cons]
    exact h

/-- The snapshots that the calls record are the rows that the results complete. -/
theorem mem_recordSamples_trades : ∀ (results : List SampleResult) {rows : List Row}, UniqueIds rows →
    (rows.filter Row.expirable).length ≤ maxActiveObservations → StaysOverCap now results rows → ∀ {trade : Row},
    (trade ∈ (recordSamples (callsAt now results) (archiveAndRetainObservations rows)).2 ↔
      ∃ row ∈ rows, row.terminal = false ∧ row.takeAll now results = trade ∧ trade.status = .complete)
  | [], rows, _, _, _, trade => by
    refine ⟨fun h => absurd h List.not_mem_nil, ?_⟩
    rintro ⟨row, -, ht, rfl, hstatus⟩
    rw [takeAll_nil] at hstatus
    unfold Row.terminal at ht
    rw [hstatus] at ht
    cases ht
  | result :: results, rows, hu, hle, h, trade => by
    have hu' : UniqueIds (archiveAndRetainObservations rows) := hu.sublist ((retain_sublist rows).map _)
    show trade ∈ (recordSample now result (archiveAndRetainObservations rows)).2 ++
      (recordSamples (callsAt now results) (recordSample now result (archiveAndRetainObservations rows)).1).2 ↔ _
    rw [List.mem_append, mem_recordSample_trades now hu', recordSample_retained now hu hle fun id => h.first now,
      mem_recordSamples_trades results (hu.take now result) (waiting_take now hle result) (h.next now)]
    have hterminal : ∀ {row : Row}, row.status = .complete → row.terminal = true := by
      intro row hstatus
      unfold Row.terminal
      rw [hstatus]
      rfl
    constructor
    · rintro (⟨row, hrow, ht, rfl, hstatus⟩ | ⟨row', hrow', ht', rfl, hstatus⟩)
      · refine ⟨row, (retain_sublist rows).subset hrow, ht, ?_, hstatus⟩
        exact takeAll_of_terminal now results (hterminal hstatus)
      · obtain ⟨row, hrow, rfl⟩ := List.mem_map.1 hrow'
        refine ⟨row, hrow, ?_, rfl, hstatus⟩
        by_contra hended
        have hended : row.terminal = true := by simpa using hended
        rw [(sampled_take now row result).of_terminal hended, hended] at ht'
        cases ht'
    · rintro ⟨row, hrow, ht, rfl, hstatus⟩
      cases hnext : (row.take now result).terminal with
      | true =>
        left
        have hkept : row ∈ archiveAndRetainObservations rows := by
          refine (mem_archiveAndRetain hu).2 ⟨hrow, fun hover => ?_⟩
          obtain ⟨row', hrow', hid, hc⟩ := hover.mem
          obtain rfl := List.inj_on_of_nodup_map hu hrow' hrow hid
          unfold Row.completed at hc
          rw [ht] at hc
          cases hc
        have hend : row.takeAll now (result :: results) = row.take now result :=
          takeAll_of_terminal now results hnext
        exact ⟨row, hkept, ht, hend.symm, hstatus⟩
      | false => exact .inr ⟨row.take now result, List.mem_map_of_mem hrow, hnext, rfl, hstatus⟩

end Calls

/-! ## Clock readings -/

section Clock

variable (results : List SampleResult)

/-- The sample is of a result that says no time, so its time is a clock reading. -/
def readsClock (row : Row) (sample : Sample) : Prop :=
  ∃ result ∈ results, result.observationId = row.observationId ∧ result.interval = sample.interval ∧
    result.sampledAtEpoch = none

instance (row : Row) (sample : Sample) : Decidable (readsClock results row sample) :=
  inferInstanceAs (Decidable (∃ result ∈ results, _))

/-- The sample without clock readings. -/
def Sample.untimed (row : Row) (sample : Sample) : Sample :=
  if readsClock results row sample then { sample with sampledAtEpoch := 0, sampleLag := 0 } else sample

/-- The row without the clock readings of writers. -/
def Row.untimed (row : Row) : Row :=
  { row with
    completedAt := row.completedAt.map fun _ => 0
    samples := row.samples.map (Sample.untimed results row) }

/-- The same rows saved and the same snapshots recorded, up to clock readings. -/
def SameUpToClock (x y : List Row × List Row) : Prop :=
  x.1.map (Row.untimed results) = y.1.map (Row.untimed results) ∧
    ∀ trade, trade ∈ x.2.map (Row.untimed results) ↔ trade ∈ y.2.map (Row.untimed results)

variable {results}

theorem untimed_sample (row : Row) (sample : Sample) :
    (sample.untimed results row).interval = sample.interval ∧
      (sample.untimed results row).returnPercent = sample.returnPercent := by
  unfold Sample.untimed
  split_ifs <;> exact ⟨rfl, rfl⟩

theorem untimed_sample_idem {row row' : Row} (h : row'.observationId = row.observationId) (sample : Sample) :
    (sample.untimed results row).untimed results row' = sample.untimed results row := by
  have hclock : ∀ sample', sample'.interval = sample.interval →
      (readsClock results row' sample' ↔ readsClock results row sample) := by
    intro sample' hinterval
    unfold readsClock
    rw [h, hinterval]
  unfold Sample.untimed
  split_ifs with hfirst hsecond hsecond
  · rfl
  · rfl
  · exact absurd ((hclock sample rfl).1 hsecond) hfirst
  · rfl

theorem untimed_completedIntervals (row : Row) :
    (row.untimed results).completedIntervals = row.completedIntervals := by
  unfold Row.completedIntervals Row.untimed
  rw [List.map_map]
  exact List.map_congr_left fun sample _ => (untimed_sample row sample).1

theorem untimed_eq {a b : Row} (h : a.untimed results = b.untimed results) :
    a.observationId = b.observationId ∧ a.status = b.status ∧ a.samples.length = b.samples.length := by
  have hid : (a.untimed results).observationId = (b.untimed results).observationId := congrArg Row.observationId h
  have hstatus : (a.untimed results).status = (b.untimed results).status := congrArg Row.status h
  have hsamples : (a.untimed results).samples.length = (b.untimed results).samples.length :=
    congrArg (fun row : Row => row.samples.length) h
  unfold Row.untimed at hsamples
  simp only [List.length_map] at hsamples
  exact ⟨hid, hstatus, hsamples⟩

theorem untimed_idem (row : Row) : (row.untimed results).untimed results = row.untimed results := by
  unfold Row.untimed
  simp only [Option.map_map, List.map_map, Row.mk.injEq, true_and, and_true]
  refine ⟨List.map_congr_left fun sample _ => untimed_sample_idem rfl sample, ?_⟩
  cases row.completedAt <;> rfl

theorem applies_untimed (result : SampleResult) (row : Row) :
    result.applies (row.untimed results) = result.applies row := by
  unfold SampleResult.applies
  rw [untimed_completedIntervals]
  rfl

theorem excursion_untimed (extreme : ℚ → ℚ → ℚ) (row : Row) (samples : List Sample) :
    excursion extreme (samples.map (Sample.untimed results row)) = excursion extreme samples := by
  have hreturns : observedReturns (samples.map (Sample.untimed results row)) = observedReturns samples := by
    unfold observedReturns
    rw [List.filterMap_map]
    exact List.filterMap_congr fun sample _ => (untimed_sample row sample).2
  unfold excursion
  rw [hreturns]

/-- A sample is the same up to clock readings, whatever the clock says. -/
theorem untimed_take {result : SampleResult} (hresult : result ∈ results) (now : Int) (row : Row) :
    (row.take now result).untimed results = ((row.untimed results).take 0 result).untimed results := by
  unfold Row.take
  rw [applies_untimed]
  split_ifs with happ
  swap
  · exact (untimed_idem row).symm
  obtain ⟨hid, -⟩ := SampleResult.applies_iff.1 happ
  have hsample : (result.sample now row).untimed results row =
      (result.sample 0 (row.untimed results)).untimed results row := by
    unfold Sample.untimed SampleResult.sample
    cases htime : result.sampledAtEpoch with
    | some time => rfl
    | none =>
      have hclock : ∀ sample, sample.interval = result.interval → readsClock results row sample :=
        fun sample hinterval => ⟨result, hresult, hid, hinterval.symm, htime⟩
      rw [if_pos (hclock _ rfl), if_pos (hclock _ rfl)]
      rfl
  set sample := result.sample now row with hs
  set sample' := result.sample 0 (row.untimed results) with hs'
  have hsamples : (row.samples ++ [sample]).map (Sample.untimed results row) =
      ((row.untimed results).samples ++ [sample']).map (Sample.untimed results row) := by
    rw [List.map_append, List.map_append]
    refine congrArg₂ (· ++ ·) ?_ (by simp [hsample])
    unfold Row.untimed
    rw [List.map_map]
    exact List.map_congr_left fun old _ => (untimed_sample_idem rfl old).symm
  have hintervals : (row.samples ++ [sample]).map Sample.interval =
      ((row.untimed results).samples ++ [sample']).map Sample.interval := by
    rw [List.map_append, List.map_append]
    exact congrArg₂ (· ++ ·) (untimed_completedIntervals row).symm rfl
  have hextreme : ∀ extreme, excursion extreme (row.samples ++ [sample]) =
      excursion extreme ((row.untimed results).samples ++ [sample']) := by
    intro extreme
    have herased : excursion extreme ((row.samples ++ [sample]).map (Sample.untimed results row)) =
        excursion extreme (row.samples ++ [sample]) := excursion_untimed extreme row _
    rw [← herased, hsamples, excursion_untimed]
  have hdone : row.trackingProfile.requiredIntervals.all (· ∈ (row.samples ++ [sample]).map Sample.interval) =
      (row.untimed results).trackingProfile.requiredIntervals.all
        (· ∈ ((row.untimed results).samples ++ [sample']).map Sample.interval) := by
    rw [hintervals]
    rfl
  unfold Row.sampled
  dsimp only
  rw [hdone, hextreme max, hextreme min]
  generalize (row.untimed results).trackingProfile.requiredIntervals.all
    (· ∈ ((row.untimed results).samples ++ [sample']).map Sample.interval) = done
  unfold Row.untimed at hsamples ⊢
  simp only [Row.mk.injEq, true_and, and_true]
  refine ⟨rfl, hsamples, ?_⟩
  cases done with
  | true => rfl
  | false => cases row.completedAt <;> rfl

theorem untimed_expire (now : Int) (rows : List Row) : (expireObservationBacklog now rows).map (Row.untimed results) =
    expireObservationBacklog 0 (rows.map (Row.untimed results)) := by
  have hexpirable : ∀ row : Row, (row.untimed results).expirable = row.expirable := fun _ => rfl
  have hexpire : ∀ row : Row, (row.expire now).untimed results = (row.untimed results).expire 0 := fun _ => rfl
  unfold expireObservationBacklog
  rw [List.filter_map, List.length_map]
  exact map_mapFirst_of hexpirable hexpire _ rows

theorem untimed_retain (rows : List Row) : (archiveAndRetainObservations rows).map (Row.untimed results) =
    archiveAndRetainObservations (rows.map (Row.untimed results)) := by
  have hoverflow : completedOverflow (rows.map (Row.untimed results)) = completedOverflow rows := by
    unfold completedOverflow
    rw [List.filter_map, List.filter_map, List.length_map, List.length_map]
    rfl
  unfold archiveAndRetainObservations
  rw [hoverflow]
  exact map_dropFirst (Row.untimed results) Row.completed Row.archived _ rows

/-- What a call saves and records depends on the rows up to clock readings only. -/
theorem recordSample_untimed {result : SampleResult} (hresult : result ∈ results) (now now' : Int)
    {rows rows' : List Row} (hu : UniqueIds rows) (hu' : UniqueIds rows')
    (hsame : rows.map (Row.untimed results) = rows'.map (Row.untimed results)) :
    SameUpToClock results (recordSample now result rows) (recordSample now' result rows') := by
  have happlies : ∀ {rows : List Row}, (∃ row ∈ rows, result.applies row = true) ↔
      ∃ row ∈ rows.map (Row.untimed results), result.applies row = true := by
    intro rows
    simp only [List.mem_map, exists_exists_and_eq_and, applies_untimed]
  have htake : ∀ {rows : List Row} (now : Int), (rows.map fun row => row.take now result).map (Row.untimed results) =
      (rows.map (Row.untimed results)).map fun row => (row.take 0 result).untimed results := by
    intro rows now
    rw [List.map_map, List.map_map]
    exact List.map_congr_left fun row _ => untimed_take hresult now row
  have htrades : ∀ {rows : List Row} (now : Int), UniqueIds rows → ∀ trade,
      trade ∈ (recordSample now result rows).2.map (Row.untimed results) ↔
        ∃ row ∈ rows.map (Row.untimed results), row.terminal = false ∧ (row.take 0 result).untimed results = trade ∧
          trade.status = .complete := by
    intro rows now hu trade
    simp only [List.mem_map, exists_exists_and_eq_and, ← untimed_take hresult now]
    constructor
    · rintro ⟨row, hrow, rfl⟩
      obtain ⟨old, hold, ht, rfl, hstatus⟩ := (mem_recordSample_trades now hu).1 hrow
      exact ⟨old, hold, ht, rfl, hstatus⟩
    · rintro ⟨old, hold, ht, rfl, hstatus⟩
      exact ⟨old.take now result, (mem_recordSample_trades now hu).2 ⟨old, hold, ht, rfl, hstatus⟩, rfl⟩
  constructor
  · by_cases happ : ∃ row ∈ rows, result.applies row = true
    · have happ' : ∃ row ∈ rows', result.applies row = true := happlies.2 (hsame ▸ happlies.1 happ)
      rw [recordSample_saved now hu happ, recordSample_saved now' hu' happ', untimed_retain, untimed_retain,
        untimed_expire, untimed_expire, htake now, htake now', hsame]
    · have happ' : ¬ ∃ row ∈ rows', result.applies row = true := fun h => happ (happlies.2 (hsame ▸ happlies.1 h))
      rw [recordSample_same now hu happ, recordSample_same now' hu' happ']
      exact hsame
  · intro trade
    rw [htrades now hu, htrades now' hu', hsame]

theorem SameUpToClock.append {x x' y y' : List Row × List Row} (h : SameUpToClock results x x')
    (h' : SameUpToClock results y y') : SameUpToClock results (y.1, x.2 ++ y.2) (y'.1, x'.2 ++ y'.2) := by
  refine ⟨h'.1, fun trade => ?_⟩
  rw [List.map_append, List.map_append, List.mem_append, List.mem_append, h.2 trade, h'.2 trade]

/-- The calls at any times are the calls at one time, up to clock readings. -/
theorem recordSamples_untimed (now : Int) : ∀ (calls : List (SampleResult × Int)) {rows rows' : List Row},
    (∀ call ∈ calls, call.1 ∈ results) → UniqueIds rows → UniqueIds rows' →
    rows.map (Row.untimed results) = rows'.map (Row.untimed results) →
    SameUpToClock results (recordSamples calls rows) (recordSamples (callsAt now (calls.map Prod.fst)) rows')
  | [], rows, rows', _, _, _, hsame => ⟨hsame, fun _ => Iff.rfl⟩
  | (result, time) :: calls, rows, rows', hcalls, hu, hu', hsame => by
    have hfirst := recordSample_untimed (hcalls _ List.mem_cons_self) time now hu hu' hsame
    exact hfirst.append (recordSamples_untimed now calls (fun call h => hcalls call (List.mem_cons_of_mem _ h))
      (hu.recordSample time result) (hu'.recordSample now result) hfirst.1)

end Clock

end Aibot.Observation
