/-
`record_sample` against `record_sample_batch`. The two agree exactly when the later samples leave alone
what the first one lets expire, and no completed row comes under the cap again.
-/
import Aibot.Observation.Complete
import Aibot.Observation.Integrity
import Aibot.Observation.OneByOne

namespace Aibot.Observation

open Aibot.Risk

/-! ## The first sample that applies -/

section First

variable {rows : List Row} (now : Int)

theorem complete_terminal {row : Row} (h : row.status = .complete) : row.terminal = true := by
  unfold Row.terminal
  rw [h]
  rfl

/-- A row that has ended stays as it is through all calls, and none of them records it. -/
theorem recordSamples_ended {ended : Row} (hended : ended.terminal = true) :
    ∀ (calls : List (SampleResult × Int)) {rows : List Row}, UniqueIds rows →
      (∀ row ∈ rows, row.observationId = ended.observationId → row = ended) →
      (∀ row ∈ (recordSamples calls rows).1, row.observationId = ended.observationId → row = ended) ∧
        ∀ trade ∈ (recordSamples calls rows).2, trade.observationId ≠ ended.observationId
  | [], _, _, h => ⟨h, fun _ hmem => absurd hmem List.not_mem_nil⟩
  | (result, time) :: calls, rows, hu, h => by
    have htake : ∀ row ∈ rows, (row.take time result).observationId = ended.observationId →
        row = ended ∧ row.take time result = ended := by
      intro row hrow hid
      obtain rfl := h row hrow ((sampled_take time row result).keeps.1.symm.trans hid)
      exact ⟨rfl, (sampled_take time row result).of_terminal hended⟩
    have hfirst : ∀ row ∈ (recordSample time result rows).1, row.observationId = ended.observationId → row = ended := by
      by_cases happ : ∃ row ∈ rows, result.applies row = true
      · rw [recordSample_saved time hu happ]
        intro row hrow hid
        rcases mem_expire ((retain_sublist _).subset hrow) with hmem | ⟨old, hold, hexp, rfl⟩
        · obtain ⟨old, hold, rfl⟩ := List.mem_map.1 hmem
          exact (htake old hold hid).2
        · obtain ⟨older, holder, rfl⟩ := List.mem_map.1 hold
          rw [(htake older holder hid).2] at hexp
          unfold Row.expirable at hexp
          rw [hended] at hexp
          cases hexp
      · rw [recordSample_same time hu happ]
        exact h
    obtain ⟨hrows, htrades⟩ := recordSamples_ended hended calls (hu.recordSample time result) hfirst
    refine ⟨hrows, fun trade htrade => ?_⟩
    rcases List.mem_append.1 htrade with htrade | htrade
    · obtain ⟨row, hrow, ht, rfl, -⟩ := (mem_recordSample_trades time hu).1 htrade
      intro hid
      rw [(htake row hrow hid).1, hended] at ht
      cases ht
    · exact htrades trade htrade

/-- What the batch saves, after its first sample. -/
theorem sampleBatch_first (hu : UniqueIds rows) {result : SampleResult} {later : List SampleResult}
    (hlen : (result :: later).length ≤ observationSampleBatchSize) (happ : ∃ row ∈ rows, result.applies row = true) :
    (sampleBatchOutcome now (result :: later) rows).1 = archiveAndRetainObservations
      (expireObservationBacklog now ((rows.map fun row => row.take now result).map (Row.takeAll now later))) := by
  obtain ⟨row, hrow, happ⟩ := happ
  rw [← takeAll_map_cons]
  refine sampleBatch_saved now hu hlen ⟨row, hrow, fun hsame => ?_⟩
  rw [take_of_takeAll_cons now later hsame] at happ
  cases happ

/-- The snapshots of the batch: the rows that its first sample completes, and those that the later ones
do. -/
theorem mem_sampleBatch_first (hu : UniqueIds rows) {result : SampleResult} {later : List SampleResult}
    (hlen : (result :: later).length ≤ observationSampleBatchSize) {trade : Row} :
    trade ∈ (sampleBatchOutcome now (result :: later) rows).2 ↔ trade ∈ (recordSample now result rows).2 ∨
      ∃ row ∈ rows.map fun row => row.take now result, row.terminal = false ∧ row.takeAll now later = trade ∧
        trade.status = .complete := by
  rw [mem_sampleBatch_trades now hu hlen, mem_recordSample_trades now hu]
  constructor
  · rintro ⟨row, hrow, ht, rfl, hstatus⟩
    cases hnext : (row.take now result).terminal with
    | true =>
      have hend : row.takeAll now (result :: later) = row.take now result := takeAll_of_terminal now later hnext
      exact .inl ⟨row, hrow, ht, hend.symm, hstatus⟩
    | false => exact .inr ⟨_, List.mem_map_of_mem hrow, hnext, rfl, hstatus⟩
  · rintro (⟨row, hrow, ht, rfl, hstatus⟩ | ⟨row', hrow', ht', rfl, hstatus⟩)
    · exact ⟨row, hrow, ht, takeAll_of_terminal now later (complete_terminal hstatus), hstatus⟩
    · obtain ⟨row, hrow, rfl⟩ := List.mem_map.1 hrow'
      refine ⟨row, hrow, ?_, rfl, hstatus⟩
      by_contra hended
      have hended : row.terminal = true := by simpa using hended
      rw [(sampled_take now row result).of_terminal hended, hended] at ht'
      cases ht'

/-- What expires has ended, the other rows stay. -/
theorem mem_expire_waits (hu : UniqueIds rows) {row : Row} (ht : row.terminal = false) :
    row ∈ expireObservationBacklog now rows ↔ row ∈ rows ∧ row ∉ backlog rows := by
  rw [expire_eq_map now hu, List.mem_map]
  constructor
  · rintro ⟨old, hold, heq⟩
    split_ifs at heq with hback
    · rw [← heq] at ht
      cases ht
    · obtain rfl := heq
      exact ⟨hold, fun hmem => hback (List.mem_map_of_mem hmem)⟩
  · rintro ⟨hrow, hback⟩
    refine ⟨row, hrow, if_neg fun hmem => hback ?_⟩
    obtain ⟨old, hold, hid⟩ := List.mem_map.1 hmem
    rwa [← List.inj_on_of_nodup_map hu (mem_backlog hold).1 hrow hid]

/-- A row of the backlog has expired. -/
theorem expired_of_backlog (hu : UniqueIds rows) {row : Row} (hback : row ∈ backlog rows) :
    ∀ row' ∈ expireObservationBacklog now rows, row'.observationId = (row.expire now).observationId →
      row' = row.expire now := by
  intro row' hrow' hid
  rw [expire_eq_map now hu] at hrow'
  obtain ⟨old, hold, rfl⟩ := List.mem_map.1 hrow'
  have hsame : old = row := by
    refine List.inj_on_of_nodup_map hu hold (mem_backlog hback).1 ?_
    split_ifs at hid <;> exact hid
  rw [hsame, if_pos (List.mem_map_of_mem hback)]

end First

/-- The batch and the calls agree where the later samples are undisturbed by the first. -/
theorem same_of_undisturbed {rows : List Row} (now : Int) (hu : UniqueIds rows) {result : SampleResult}
    {later : List SampleResult} (hlen : (result :: later).length ≤ observationSampleBatchSize)
    (happ : ∃ row ∈ rows, result.applies row = true)
    (h : Undisturbed now (rows.map fun row => row.take now result) later) :
    (sampleBatchOutcome now (result :: later) rows).1 = (recordSamples (callsAt now (result :: later)) rows).1 ∧
      ∀ trade, trade ∈ (sampleBatchOutcome now (result :: later) rows).2 ↔
        trade ∈ (recordSamples (callsAt now (result :: later)) rows).2 := by
  have hu₁ := hu.take now result
  have hu₂ := hu₁.expire now
  have hstays : StaysOverCap now later (expireObservationBacklog now (rows.map fun row => row.take now result)) := by
    intro earlier hearlier id hover
    rw [← overCap_expire now hu₁ h.waiting hearlier] at hover
    rw [← overCap_expire now hu₁ h.waiting List.prefix_rfl]
    exact h.overCap earlier hearlier id hover
  have hcalls : recordSamples (callsAt now (result :: later)) rows =
      ((recordSamples (callsAt now later) (recordSample now result rows).1).1,
        (recordSample now result rows).2 ++ (recordSamples (callsAt now later) (recordSample now result rows).1).2) :=
    rfl
  rw [hcalls, recordSample_saved now hu happ]
  constructor
  · rw [sampleBatch_first now hu hlen happ, recordSamples_retained now later hu₂ (expire_waiting now) hstays]
    exact retain_expire now hu₁ h.waiting h.backlog
  · intro trade
    rw [mem_sampleBatch_first now hu hlen, List.mem_append,
      mem_recordSamples_trades now later hu₂ (expire_waiting now) hstays]
    refine or_congr_right ⟨?_, ?_⟩
    · rintro ⟨row, hrow, ht, rfl, hstatus⟩
      refine ⟨row, (mem_expire_waits now hu₁ ht).2 ⟨hrow, fun hback => ?_⟩, ht, rfl, hstatus⟩
      -- a row of the backlog is not completed
      have hwaits := h.waiting (List.ne_nil_of_mem hback) row hrow (mem_backlog hback).2
      unfold Row.expirable at hwaits
      rw [complete_terminal hstatus] at hwaits
      cases hwaits
    · rintro ⟨row, hrow, ht, rfl, hstatus⟩
      exact ⟨row, ((mem_expire_waits now hu₁ ht).1 hrow).1, ht, rfl, hstatus⟩

/-! ## Where they differ -/

section Differ

variable {rows : List Row} (now : Int)

/-- Fewer rows wait after samples of which one completes a waiting row, so that a row of the backlog is
not in it any more. -/
theorem backlog_shrinks (hu : UniqueIds rows) {later : List SampleResult} (hback : backlog rows ≠ [])
    {row : Row} (hrow : row ∈ rows) (hexp : row.expirable = true) (hend : (row.takeAll now later).expirable = false) :
    ∃ first ∈ backlog rows,
      first.observationId ∉ (backlog (rows.map (Row.takeAll now later))).map Row.observationId := by
  by_contra hall
  have hsubset : (backlog rows).map Row.observationId ⊆
      (backlog (rows.map (Row.takeAll now later))).map Row.observationId := by
    intro id hid
    obtain ⟨first, hfirst, rfl⟩ := List.mem_map.1 hid
    by_contra hout
    exact hall ⟨first, hfirst, hout⟩
  have hn : ((backlog rows).map Row.observationId).Nodup :=
    hu.sublist (((List.take_sublist _ _).trans List.filter_sublist).map _)
  have hle := (List.subperm_of_subset hn hsubset).length_le
  have hfewer : ((rows.map (Row.takeAll now later)).filter Row.expirable).length <
      (rows.filter Row.expirable).length := by
    rw [List.filter_map, List.length_map]
    refine lt_of_le_of_ne ?_ fun hsame => ?_
    · rw [← List.countP_eq_length_filter, ← List.countP_eq_length_filter]
      exact List.countP_mono_left fun row _ h => expirable_of_takeAll now later h
    · have hsub : (rows.filter (Row.expirable ∘ Row.takeAll now later)).Sublist (rows.filter Row.expirable) := by
        have hboth : rows.filter (Row.expirable ∘ Row.takeAll now later) =
            (rows.filter Row.expirable).filter (Row.expirable ∘ Row.takeAll now later) := by
          rw [List.filter_filter]
          refine List.filter_congr fun x _ => ?_
          cases hx : x.expirable with
          | true => simp
          | false =>
            have hnot : (x.takeAll now later).expirable = false := by
              by_contra hcon
              rw [expirable_of_takeAll now later (by simpa using hcon)] at hx
              cases hx
            simp [hnot]
        rw [hboth]
        exact List.filter_sublist
      have hmem : row ∈ rows.filter (Row.expirable ∘ Row.takeAll now later) := by
        rw [hsub.eq_of_length hsame]
        exact List.mem_filter.2 ⟨hrow, hexp⟩
      have hstill : (row.takeAll now later).expirable = true := (List.mem_filter.1 hmem).2
      rw [hend] at hstill
      cases hstill
  have hpos := mt backlog_eq_nil.2 hback
  unfold backlog at hle
  simp only [List.length_map, List.length_take] at hle hfewer
  omega

/-- The later samples are undisturbed by the first where the batch and the calls agree, if only in the
ids, the statuses and the numbers of samples. -/
theorem undisturbed_of_same (hu : UniqueIds rows) {result : SampleResult} {later results : List SampleResult}
    (hlen : (result :: later).length ≤ observationSampleBatchSize) (happ : ∃ row ∈ rows, result.applies row = true)
    (h : SameUpToClock results (sampleBatchOutcome now (result :: later) rows)
      (recordSamples (callsAt now (result :: later)) rows)) :
    Undisturbed now (rows.map fun row => row.take now result) later := by
  have hu₁ := hu.take now result
  have hcalls : recordSamples (callsAt now (result :: later)) rows =
      ((recordSamples (callsAt now later) (recordSample now result rows).1).1,
        (recordSample now result rows).2 ++ (recordSamples (callsAt now later) (recordSample now result rows).1).2) :=
    rfl
  rw [hcalls] at h
  obtain ⟨hrows, htrades⟩ := h
  dsimp only at hrows htrades
  rw [sampleBatch_first now hu hlen happ] at hrows
  set first := rows.map fun row => row.take now result with hfirst
  -- what the calls make of a row of the backlog: it has expired with the first sample
  have hended : ∀ row ∈ backlog first,
      (∀ row' ∈ (recordSamples (callsAt now later) (recordSample now result rows).1).1,
        row'.observationId = row.observationId → row' = row.expire now) ∧
      ∀ trade ∈ (recordSample now result rows).2 ++
        (recordSamples (callsAt now later) (recordSample now result rows).1).2,
        trade.observationId ≠ row.observationId := by
    intro row hback
    have hexpired : ∀ row' ∈ (recordSample now result rows).1,
        row'.observationId = (row.expire now).observationId → row' = row.expire now := by
      rw [recordSample_saved now hu happ]
      exact fun row' hrow' => expired_of_backlog now hu₁ hback row' ((retain_sublist _).subset hrow')
    have hended : (row.expire now).terminal = true := rfl
    obtain ⟨hsaved, hrecorded⟩ :=
      recordSamples_ended hended (callsAt now later) (hu.recordSample now result) hexpired
    refine ⟨hsaved, fun trade htrade => ?_⟩
    rcases List.mem_append.1 htrade with htrade | htrade
    · obtain ⟨old, hold, -, rfl, hstatus⟩ := (mem_recordSample_trades now hu).1 htrade
      intro hid
      obtain ⟨hmem, hexp⟩ := mem_backlog hback
      rw [← List.inj_on_of_nodup_map hu₁ (List.mem_map_of_mem hold) hmem hid] at hexp
      unfold Row.expirable at hexp
      rw [complete_terminal hstatus] at hexp
      cases hexp
    · exact hrecorded trade htrade
  -- a row that the batch saves is one that the calls save, up to clock readings
  have hbatch : ∀ row ∈ expireObservationBacklog now (first.map (Row.takeAll now later)),
      ¬ OverCap (expireObservationBacklog now (first.map (Row.takeAll now later))) row.observationId →
      ∃ row' ∈ (recordSamples (callsAt now later) (recordSample now result rows).1).1,
        row'.untimed results = row.untimed results := by
    intro row hrow hover
    have hkept := (mem_archiveAndRetain ((hu₁.takeAll now later).expire now)).2 ⟨hrow, hover⟩
    have hmem := List.mem_map_of_mem (f := Row.untimed results) hkept
    rw [hrows] at hmem
    exact List.mem_map.1 hmem
  have hwaiting : backlog first ≠ [] → ∀ row ∈ first, row.expirable = true →
      (row.takeAll now later).expirable = true := by
    intro hback row hrow hexp
    by_contra hend
    have hend : (row.takeAll now later).expirable = false := by simpa using hend
    obtain ⟨oldest, holdest, hout⟩ := backlog_shrinks now hu₁ hback hrow hexp hend
    obtain ⟨hmem, holdestExp⟩ := mem_backlog holdest
    cases ht : (oldest.takeAll now later).terminal with
    | true =>
      -- the batch completes a row that has expired in the calls, and records it
      have hwaits : oldest.terminal = false := by
        unfold Row.expirable at holdestExp
        simpa using (Bool.and_eq_true_iff.1 holdestExp).1
      have htrade : oldest.takeAll now later ∈ (sampleBatchOutcome now (result :: later) rows).2 :=
        (mem_sampleBatch_first now hu hlen).2
          (.inr ⟨oldest, hmem, hwaits, rfl, takeAll_terminal now later hwaits ht⟩)
      obtain ⟨trade, htrade, heq⟩ :=
        List.mem_map.1 ((htrades _).1 (List.mem_map_of_mem (f := Row.untimed results) htrade))
      refine (hended oldest holdest).2 trade htrade ?_
      rw [(untimed_eq heq).1, takeAll_id]
    | false =>
      -- the batch lets a row wait that has expired in the calls
      have hstays : oldest.takeAll now later ∈ expireObservationBacklog now (first.map (Row.takeAll now later)) := by
        refine (mem_expire_waits now (hu₁.takeAll now later) ht).2 ⟨List.mem_map_of_mem hmem, fun hstill => hout ?_⟩
        rw [← takeAll_id now later oldest]
        exact List.mem_map_of_mem hstill
      obtain ⟨row', hrow', heq⟩ := hbatch _ hstays fun hover => by
        obtain ⟨row', hrow', hid, hc⟩ := hover.mem
        rw [List.inj_on_of_nodup_map ((hu₁.takeAll now later).expire now) hrow' hstays hid] at hc
        unfold Row.completed at hc
        rw [ht] at hc
        cases hc
      obtain ⟨hid, hstatus, -⟩ := untimed_eq heq
      rw [takeAll_id] at hid
      obtain rfl := (hended oldest holdest).1 row' hrow' hid
      unfold Row.terminal at ht
      rw [← hstatus] at ht
      cases ht
  have hbacklog : ∀ row ∈ backlog first, row.takeAll now later ≠ row →
      OverCap (expireObservationBacklog now (first.map (Row.takeAll now later))) row.observationId := by
    intro row hback hne
    by_contra hover
    obtain ⟨row'', hrow'', hid'', hsamples⟩ :
        ∃ row'' ∈ expireObservationBacklog now (first.map (Row.takeAll now later)),
        row''.observationId = row.observationId ∧ row''.samples = (row.takeAll now later).samples := by
      rcases expire_mem now (List.mem_map_of_mem (f := Row.takeAll now later) (mem_backlog hback).1) with
        hmem | ⟨-, hmem⟩
      · exact ⟨_, hmem, takeAll_id now later row, rfl⟩
      · exact ⟨_, hmem, takeAll_id now later row, rfl⟩
    obtain ⟨row', hrow', heq⟩ := hbatch row'' hrow'' (by rwa [hid''])
    obtain ⟨hid, -, hlength⟩ := untimed_eq heq
    obtain rfl := (hended row hback).1 row' hrow' (hid.trans hid'')
    rw [hsamples] at hlength
    exact absurd hlength (length_samples_lt now later hne).ne
  refine ⟨hwaiting, hbacklog, fun earlier hearlier id hover => ?_⟩
  rw [retain_expire now hu₁ hwaiting hbacklog] at hrows
  have hids := congrArg (List.map Row.observationId) hrows
  rw [List.map_map, List.map_map] at hids
  have hstays : StaysOverCap now later (expireObservationBacklog now first) := by
    refine staysOverCap_of_ids now later (hu₁.expire now) (expire_waiting now) ?_
    rw [← recordSample_saved now hu happ]
    exact hids.symm
  rw [overCap_expire now hu₁ hwaiting hearlier] at hover
  rw [overCap_expire now hu₁ hwaiting List.prefix_rfl]
  exact hstays earlier hearlier id hover

end Differ

/-! ## The batch and the calls -/

theorem SameUpToClock.refl {results : List SampleResult} (x : List Row × List Row) : SameUpToClock results x x :=
  ⟨rfl, fun _ => Iff.rfl⟩

theorem SameUpToClock.symm {results : List SampleResult} {x y : List Row × List Row} (h : SameUpToClock results x y) :
    SameUpToClock results y x :=
  ⟨h.1.symm, fun trade => (h.2 trade).symm⟩

theorem SameUpToClock.trans {results : List SampleResult} {x y z : List Row × List Row}
    (h : SameUpToClock results x y) (h' : SameUpToClock results y z) : SameUpToClock results x z :=
  ⟨h.1.trans h'.1, fun trade => (h.2 trade).trans (h'.2 trade)⟩

/-- The same rows and the same snapshots. -/
theorem SameUpToClock.of_eq {results : List SampleResult} {x y : List Row × List Row} (hrows : x.1 = y.1)
    (htrades : ∀ trade, trade ∈ x.2 ↔ trade ∈ y.2) : SameUpToClock results x y := by
  refine ⟨by rw [hrows], fun trade => ?_⟩
  simp only [List.mem_map, htrades]

/-- A first result that applies to no row makes no difference. -/
theorem sampleBatch_skip {rows : List Row} (now : Int) (hu : UniqueIds rows) {result : SampleResult}
    {later : List SampleResult} (hlen : (result :: later).length ≤ observationSampleBatchSize)
    (happ : ¬ ∃ row ∈ rows, result.applies row = true) :
    (sampleBatchOutcome now (result :: later) rows).1 = (sampleBatchOutcome now later rows).1 ∧
      ∀ trade, trade ∈ (sampleBatchOutcome now (result :: later) rows).2 ↔
        trade ∈ (sampleBatchOutcome now later rows).2 := by
  have hlen' : later.length ≤ observationSampleBatchSize := (Nat.le_succ _).trans hlen
  have hsame : ∀ row ∈ rows, row.takeAll now (result :: later) = row.takeAll now later := by
    intro row hrow
    rw [takeAll_cons, take_of_not_applies now]
    by_contra hcon
    exact happ ⟨row, hrow, by simpa using hcon⟩
  constructor
  · by_cases hall : ∀ row ∈ rows, row.takeAll now later = row
    · rw [sampleBatch_same now hu hlen fun row hrow => (hsame row hrow).trans (hall row hrow),
        sampleBatch_same now hu hlen' hall]
    · have hsome : ∃ row ∈ rows, row.takeAll now later ≠ row := by
        by_contra hnone
        exact hall fun row hrow => by_contra fun hne => hnone ⟨row, hrow, hne⟩
      obtain ⟨row, hrow, hne⟩ := hsome
      rw [sampleBatch_saved now hu hlen ⟨row, hrow, by rwa [hsame row hrow]⟩,
        sampleBatch_saved now hu hlen' ⟨row, hrow, hne⟩, List.map_congr_left hsame]
  · intro trade
    rw [mem_sampleBatch_trades now hu hlen, mem_sampleBatch_trades now hu hlen']
    refine exists_congr fun row => and_congr_right fun hrow => ?_
    rw [hsame row hrow]

/-- The calls at one time. -/
theorem sampledApart_iff {all : List SampleResult} (now : Int) : ∀ (results : List SampleResult) {rows : List Row},
    UniqueIds rows → results.length ≤ observationSampleBatchSize →
    (SameUpToClock all (sampleBatchOutcome now results rows) (recordSamples (callsAt now results) rows) ↔
      SampledApart now results rows)
  | [], rows, hu, hlen => by
    rw [sampleBatch_same now hu hlen fun row _ => takeAll_nil now row]
    exact iff_of_true (SameUpToClock.refl _) trivial
  | result :: later, rows, hu, hlen => by
    unfold SampledApart
    split_ifs with happ
    · constructor
      · exact undisturbed_of_same now hu hlen happ
      · intro h
        obtain ⟨hrows, htrades⟩ := same_of_undisturbed now hu hlen happ h
        exact SameUpToClock.of_eq hrows htrades
    · obtain ⟨hrows, htrades⟩ := sampleBatch_skip now hu hlen happ
      have hbatch : SameUpToClock all (sampleBatchOutcome now (result :: later) rows)
          (sampleBatchOutcome now later rows) :=
        SameUpToClock.of_eq hrows htrades
      have hcalls : recordSamples (callsAt now (result :: later)) rows = recordSamples (callsAt now later) rows := by
        show (_, (recordSample now result rows).2 ++ _) = _
        rw [recordSample_same now hu happ]
        rfl
      rw [hcalls, ← sampledApart_iff now later hu ((Nat.le_succ _).trans hlen)]
      exact ⟨fun h => hbatch.symm.trans h, fun h => hbatch.trans h⟩

theorem uniqueIds_run {acts : List LedgerAct} {rows : List Row} (h : Run LedgerAct.step Run.anyStep [] acts rows) :
    UniqueIds rows := by
  refine h.invariant (P := UniqueIds) (fun rows act rows' hu _ hstep => ?_) List.nodup_nil
  cases act with
  | call op => exact Option.some.inj hstep ▸ hu.write op
  | markers snapshots => exact Option.some.inj hstep ▸ hu.markers snapshots

/-- Batch equals fold: in every reachable ledger, a batch of results leaves the same observations and
records the same shadow trades as a call for each of them in order, at any times, exactly when its later
samples are undisturbed by the first one that applies. -/
theorem recordSampleBatch_one_by_one {acts : List LedgerAct} {rows : List Row}
    (h : Run LedgerAct.step Run.anyStep [] acts rows) (now : Int) (calls : List (SampleResult × Int))
    (hlen : calls.length ≤ observationSampleBatchSize) :
    SameUpToClock (calls.map Prod.fst) (sampleBatchOutcome now (calls.map Prod.fst) rows) (recordSamples calls rows) ↔
      SampledApart now (calls.map Prod.fst) rows := by
  have hu := uniqueIds_run h
  have htimes : SameUpToClock (calls.map Prod.fst) (recordSamples calls rows)
      (recordSamples (callsAt now (calls.map Prod.fst)) rows) :=
    recordSamples_untimed now calls (fun call hcall => List.mem_map_of_mem hcall) hu hu rfl
  rw [← sampledApart_iff now (calls.map Prod.fst) hu (by rwa [List.length_map])]
  exact ⟨fun hsame => hsame.trans htimes, fun hsame => hsame.trans htimes.symm⟩

/-- Within both limits the later samples are undisturbed. -/
theorem sampledApart_of_le (now : Int) (results : List SampleResult) {rows : List Row}
    (hwait : (rows.filter Row.expirable).length ≤ maxActiveObservations) (hlen : rows.length ≤ maxObservations) :
    SampledApart now results rows := by
  have hnone : ∀ {rows' : List Row} {id : ObservationId}, rows'.length = rows.length → ¬ OverCap rows' id := by
    rintro rows' id hlength ⟨before, row, after, -, -, -, -, hlt⟩
    omega
  induction results with
  | nil => trivial
  | cons result later ih =>
    unfold SampledApart
    split_ifs
    · have hback := backlog_eq_nil.2 (waiting_take now hwait result)
      have hlength : ∀ results, (expireObservationBacklog now ((rows.map fun row => row.take now result).map
          (Row.takeAll now results))).length = rows.length := by
        intro results
        rw [← List.length_map Row.observationId, map_expire Row.observationId now fun _ => rfl]
        simp
      constructor
      · exact fun hne => absurd hback hne
      · intro row hrow
        rw [hback] at hrow
        cases hrow
      · exact fun earlier _ id hover => absurd hover (hnone (hlength earlier))
    · exact ih

/-- Two horizons of one candidate, recorded one after the other. -/
def twoHorizons : List (SampleResult × Int) :=
  [(⟨(sampleDiscovery 0).observationId, .m1, some 1000, none, none⟩, 1),
    (⟨(sampleDiscovery 0).observationId, .m3, none, some "NO_ROUTE", some 180000000⟩, 2)]

theorem recordSampleBatch_one_by_one_small : ∃ rows,
    Run LedgerAct.step Run.anyStep [] [.call (.discovery (sampleDiscovery 0) 0)] rows ∧
    SameUpToClock (twoHorizons.map Prod.fst) (sampleBatchOutcome 5 (twoHorizons.map Prod.fst) rows)
      (recordSamples twoHorizons rows) := by
  obtain ⟨rows, hrun, hone⟩ : ∃ rows,
      Run LedgerAct.step Run.anyStep [] [.call (.discovery (sampleDiscovery 0) 0)] rows ∧ rows.length = 1 :=
    Run.exists_of_any (by decide +kernel)
  have hwait : (rows.filter Row.expirable).length ≤ maxActiveObservations := by
    refine (List.length_filter_le _ _).trans ?_
    unfold maxActiveObservations
    omega
  have hlen : rows.length ≤ maxObservations := by
    unfold maxObservations
    omega
  have hapart := sampledApart_of_le 5 (twoHorizons.map Prod.fst) hwait hlen
  exact ⟨rows, hrun, (recordSampleBatch_one_by_one hrun 5 twoHorizons (by decide)).2 hapart⟩

/-! ## One waiting row too many -/

/-- A candidate that waits. -/
def waitingRow (n : Nat) : Row := (sampleDiscovery n).row 0

/-- The first candidate, with an open position. -/
def openedRow : Row := (waitingRow 0).marked .opened none

def closedRow : Row := openedRow.marked .closed none

/-- The candidates after the first one. -/
def laterRows (n : Nat) : List Row := (List.range n).map fun k => waitingRow (k + 1)

theorem length_laterRows (n : Nat) : (laterRows n).length = n := by simp [laterRows]

theorem laterRows_succ (n : Nat) : laterRows (n + 1) = laterRows n ++ [waitingRow (n + 1)] := by
  unfold laterRows
  rw [List.range_succ, List.map_append]
  rfl

theorem mem_laterRows {n : Nat} {row : Row} (h : row ∈ laterRows n) : ∃ k < n, row = waitingRow (k + 1) := by
  obtain ⟨k, hk, rfl⟩ := List.mem_map.1 h
  exact ⟨k, List.mem_range.1 hk, rfl⟩

theorem retain_of_le {rows : List Row} (h : rows.length ≤ maxObservations) :
    archiveAndRetainObservations rows = rows := by
  unfold archiveAndRetainObservations
  rw [overflow_of_le h]
  simp [dropFirst]

/-- A new candidate comes in where there is room. -/
theorem discovery_step {rows : List Row} {n : Nat}
    (hnew : (sampleDiscovery n).observationId ∉ rows.map Row.observationId)
    (hwait : ((rows ++ [waitingRow n]).filter Row.expirable).length ≤ maxActiveObservations)
    (hlen : (rows ++ [waitingRow n]).length ≤ maxObservations) :
    LedgerAct.step rows (.call (.discovery (sampleDiscovery n) 0)) = some (rows ++ [waitingRow n]) := by
  have hwrite : (ObservationOp.discovery (sampleDiscovery n) 0).write rows =
      .retain (expireObservationBacklog 0 (rows ++ [waitingRow n])) := by
    have hnone : findRow rows (sampleDiscovery n).observationId = none := findRow_none.2 hnew
    show (recordCandidateDiscovery (sampleDiscovery n) 0 rows).2 = _
    unfold recordCandidateDiscovery
    dsimp only
    rw [hnone]
    rfl
  show some (Write.rows _) = _
  rw [hwrite, expire_of_le 0 hwait]
  exact congrArg some (retain_of_le hlen)

/-- The paper experiment of the first row gets a status. -/
theorem mark_step {row : Row} {rest : List Row} {status : PaperStatus} (hmark : status.markable = true)
    (hlen : (row :: rest).length ≤ maxObservations) :
    LedgerAct.step (row :: rest) (.call (.mark row.observationId status none)) =
      some (row.marked status none :: rest) := by
  have hwrite : (ObservationOp.mark row.observationId status none).write (row :: rest) =
      .retain (row.marked status none :: rest) := by
    have hfind : findRow (row :: rest) row.observationId = some row := by simp [findRow]
    have hmodify : modifyRow (row :: rest) row.observationId (fun row => row.marked status none) =
        row.marked status none :: rest := by
      simp [modifyRow, modifyFirst]
    show ((markPaperExperimentStatus row.observationId status none (row :: rest)).map Prod.snd).toOption.getD _ = _
    unfold markPaperExperimentStatus
    rw [if_pos hmark, hfind]
    dsimp only
    rw [hmodify]
    rfl
  show some (Write.rows _) = _
  rw [hwrite]
  exact congrArg some (retain_of_le hlen)

/-- The first candidate gets a position, the others come in behind it. -/
def fillingActs (n : Nat) : List LedgerAct :=
  [.call (.discovery (sampleDiscovery 0) 0), .call (.mark (sampleDiscovery 0).observationId .opened none)] ++
    (List.range n).map fun k => .call (.discovery (sampleDiscovery (k + 1)) 0)

theorem filling_run : ∀ n ≤ 200, Run LedgerAct.step Run.anyStep [] (fillingActs n) (openedRow :: laterRows n)
  | 0, _ => by
    have hfirst : LedgerAct.step [] (.call (.discovery (sampleDiscovery 0) 0)) = some [waitingRow 0] := by
      refine discovery_step List.not_mem_nil ?_ ?_
      · refine (List.length_filter_le _ _).trans ?_
        unfold maxActiveObservations
        simp
      · unfold maxObservations
        simp
    refine .cons trivial hfirst (.cons trivial (mark_step rfl ?_) (.nil _))
    unfold maxObservations
    simp
  | n + 1, hn => by
    have hrun := filling_run n (by omega)
    have hacts : fillingActs (n + 1) = fillingActs n ++ [.call (.discovery (sampleDiscovery (n + 1)) 0)] := by
      unfold fillingActs
      rw [List.range_succ, List.map_append, ← List.append_assoc]
      rfl
    rw [hacts, laterRows_succ]
    refine hrun.concat trivial (discovery_step ?_ ?_ ?_)
    · intro hmem
      obtain ⟨row, hrow, hid⟩ := List.mem_map.1 hmem
      rcases List.mem_cons.1 hrow with rfl | hrow
      · exact absurd (sampleDiscovery_injective hid) (by omega)
      · obtain ⟨k, hk, rfl⟩ := mem_laterRows hrow
        have := sampleDiscovery_injective hid
        omega
    · -- the row with the position does not wait
      rw [List.cons_append, List.filter_cons_of_neg (by decide), ← laterRows_succ]
      refine (List.length_filter_le _ _).trans ?_
      rw [length_laterRows]
      unfold maxActiveObservations
      omega
    · rw [List.cons_append, List.length_cons, ← laterRows_succ, length_laterRows]
      unfold maxObservations
      omega

/-- A horizon of a candidate. -/
def firstHorizon (n : Nat) : SampleResult :=
  ⟨(sampleDiscovery n).observationId, .m1, some 1000, none, some 60000000⟩

/-- A sample of the last row, then one of the first. -/
def lastThenFirst : List (SampleResult × Int) := [(firstHorizon 200, 1), (firstHorizon 0, 2)]

/-- The position of the first candidate is closed, so that one row too many waits. The first call lets it
expire before the second call, in the batch it takes its sample first. -/
theorem recordSampleBatch_differs : ¬ ∀ (acts : List LedgerAct) (rows : List Row),
    Run LedgerAct.step Run.anyStep [] acts rows → ∀ (now : Int) (calls : List (SampleResult × Int)),
    calls.length ≤ observationSampleBatchSize →
    SameUpToClock (calls.map Prod.fst) (sampleBatchOutcome now (calls.map Prod.fst) rows)
      (recordSamples calls rows) := by
  intro h
  have hclosed : LedgerAct.step (openedRow :: laterRows 200)
      (.call (.mark (sampleDiscovery 0).observationId .closed none)) =
      some (closedRow :: laterRows 200) := by
    refine mark_step rfl ?_
    rw [List.length_cons, length_laterRows]
    unfold maxObservations
    omega
  have hrun := (filling_run 200 le_rfl).concat trivial hclosed
  have hu := uniqueIds_run hrun
  have hlength : (closedRow :: laterRows 200).length = 201 := by rw [List.length_cons, length_laterRows]
  have htimes : SameUpToClock (lastThenFirst.map Prod.fst) (recordSamples lastThenFirst (closedRow :: laterRows 200))
      (recordSamples (callsAt 0 (lastThenFirst.map Prod.fst)) (closedRow :: laterRows 200)) :=
    recordSamples_untimed 0 lastThenFirst (fun call hcall => List.mem_map_of_mem hcall) hu hu rfl
  have hsame := (h _ _ hrun 0 lastThenFirst (by decide)).trans htimes
  have hlast : ∃ row ∈ closedRow :: laterRows 200, (firstHorizon 200).applies row = true := by
    refine ⟨waitingRow 200, ?_, SampleResult.applies_iff.2 ⟨rfl, rfl, List.not_mem_nil⟩⟩
    rw [laterRows_succ]
    simp
  have hundisturbed := undisturbed_of_same 0 hu (by decide) hlast hsame
  -- every row still waits after the first sample, and the first one is beyond the limit
  have hwaits : ∀ row ∈ (closedRow :: laterRows 200).map fun row => row.take 0 (firstHorizon 200),
      row.expirable = true := by
    intro row hrow
    obtain ⟨old, hold, rfl⟩ := List.mem_map.1 hrow
    unfold Row.take
    rcases List.mem_cons.1 hold with rfl | hold
    · split_ifs <;> rfl
    · obtain ⟨k, -, rfl⟩ := mem_laterRows hold
      split_ifs <;> rfl
  have hfirst : closedRow.take 0 (firstHorizon 200) = closedRow := by
    refine take_of_not_applies 0 ?_
    by_contra happ
    have hid := (SampleResult.applies_iff.1 (by simpa using happ)).1
    exact absurd (sampleDiscovery_injective hid) (by decide)
  have hbacklog : closedRow ∈ backlog ((closedRow :: laterRows 200).map fun row => row.take 0 (firstHorizon 200)) := by
    unfold backlog
    rw [List.filter_eq_self.2 hwaits, List.length_map, hlength, List.map_cons, hfirst]
    have hroom : 201 - maxActiveObservations = 1 := by
      unfold maxActiveObservations
      rfl
    rw [hroom]
    exact List.mem_cons_self
  have hsampled : closedRow.takeAll 0 [firstHorizon 0] ≠ closedRow := by
    intro hkept
    have happ : (firstHorizon 0).applies closedRow = true :=
      SampleResult.applies_iff.2 ⟨rfl, rfl, List.not_mem_nil⟩
    have hone := length_samples_take 0 happ
    rw [show closedRow.take 0 (firstHorizon 0) = closedRow from hkept] at hone
    omega
  obtain ⟨before, row, after, -, -, -, -, hlt⟩ := hundisturbed.backlog closedRow hbacklog hsampled
  rw [← List.length_map Row.observationId, map_expire Row.observationId 0 fun _ => rfl] at hlt
  simp only [List.length_map] at hlt
  rw [hlength] at hlt
  unfold maxObservations at hlt
  omega

end Aibot.Observation
