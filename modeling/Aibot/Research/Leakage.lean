/-
No leakage into the validation: what a hypothesis is judged by are the signals after its boundary. Two
archives that agree on those have one result, whatever else is in them.
-/
import Aibot.Lib.Listing
import Aibot.Research.Validation

namespace Aibot.Research

open Observation.Stored (Conversions)
open Store (JsonDocument)

section Leakage

variable {F : Type} (fl : Arithmetic F) (py : Host)

/-- The boundary of a hypothesis, as a time. -/
def boundaryOf (hypothesis : Hypothesis) : ℚ := ((timestampValue py hypothesis.validationStart).map Double.val).getD 0

/-- The row's signal comes after the boundary. -/
def isAfter (hypothesis : Hypothesis) (row : Value) : Bool :=
  (signalTimestamp py row).any fun timestamp => boundaryOf py hypothesis < timestamp.val

/-- No two rows are of one event. -/
def DistinctIdentities (rows : List Value) : Prop := ((rows.filter isDict).map (eventIdentity py)).Nodup

/-- The row is an object, and its event has an identity. -/
def identified (row : Value) : Bool := isDict row && decide (eventIdentity py row ≠ "")

variable {py}

/-! ## Deduplication -/

theorem read_identified {d : Deduplicated} {row : Value} (h : identified py row = true)
    (hnew : d.byId.get? (eventIdentity py row) = none) : d.read py row =
      { d with byId := d.byId.set (eventIdentity py row) (py.digest row, row) } := by
  unfold identified at h
  rw [Bool.and_eq_true, decide_eq_true_eq] at h
  unfold Deduplicated.read
  simp [h.1, h.2, hnew]

theorem read_unidentified {d : Deduplicated} {row : Value} (h : ¬ identified py row = true) : d.read py row = d := by
  unfold identified at h
  rw [Bool.and_eq_true, decide_eq_true_eq, not_and, not_not] at h
  unfold Deduplicated.read
  by_cases hdict : isDict row = true
  · simp [hdict, h hdict]
  · simp [hdict]

/-- Rows of new events are taken as they are. -/
theorem foldl_read : ∀ {rows : List Value} {d : Deduplicated}, d.conflicts = [] →
    ((rows.filter (identified py)).map (eventIdentity py)).Nodup →
    (∀ row ∈ rows.filter (identified py), d.byId.get? (eventIdentity py row) = none) →
    (rows.foldl (Deduplicated.read py) d).conflicts = [] ∧
      (rows.foldl (Deduplicated.read py) d).byId.entries = d.byId.entries ++
        (rows.filter (identified py)).map fun row => (eventIdentity py row, py.digest row, row)
  | [], d, hc, _, _ => ⟨hc, by simp⟩
  | row :: rows, d, hc, hnodup, hnew => by
    rw [List.foldl_cons]
    by_cases hrow : identified py row = true
    · rw [List.filter_cons_of_pos hrow] at hnodup hnew ⊢
      obtain ⟨hout, hrest⟩ := List.nodup_cons.1 hnodup
      have hfresh := hnew row List.mem_cons_self
      rw [read_identified hrow hfresh]
      obtain ⟨hc', hentries⟩ := @foldl_read rows
        { d with byId := d.byId.set (eventIdentity py row) (py.digest row, row) } hc hrest (by
          intro row' hrow'
          have hne : eventIdentity py row' ≠ eventIdentity py row := by
            intro heq
            exact hout (heq ▸ List.mem_map_of_mem hrow')
          rw [Dict.get?_set_of_ne _ _ hne]
          exact hnew row' (List.mem_cons_of_mem _ hrow'))
      refine ⟨hc', ?_⟩
      rw [hentries, Dict.entries_set_of_none hfresh, List.map_cons, List.append_assoc, List.singleton_append]
    · rw [List.filter_cons_of_neg hrow] at hnodup hnew ⊢
      rw [read_unidentified hrow]
      exact foldl_read hc hnodup hnew

/-- Without two rows of one event, nothing is dropped but the rows of none. -/
theorem deduplicatedEvents_eq {rows : List Value} (h : DistinctIdentities py rows) :
    deduplicatedEvents py rows = rows.filter (identified py) := by
  have hsub : ((rows.filter (identified py)).map (eventIdentity py)).Nodup := by
    refine List.Nodup.sublist (List.Sublist.map _ ?_) h
    apply List.monotone_filter_right
    intro row hrow
    unfold identified at hrow
    exact (Bool.and_eq_true _ _ ▸ hrow).1
  obtain ⟨hc, hentries⟩ := @foldl_read py rows ⟨Dict.empty, []⟩ rfl hsub fun _ _ => rfl
  have hentries' : (rows.foldl (Deduplicated.read py) ⟨Dict.empty, []⟩).byId.entries =
      (rows.filter (identified py)).map fun row => (eventIdentity py row, py.digest row, row) := hentries
  unfold deduplicatedEvents
  dsimp only
  rw [hc, hentries', List.filter_eq_self.2 (by simp), List.map_map]
  exact List.map_id _

/-! ## Events -/

/-- An event is what its row says. -/
theorem scoredEvent_row {row : Value} {event : ScoredEvent} (h : scoredEvent py row = some event) :
    event.row = row ∧ event.identity = eventIdentity py row ∧ signalTimestamp py row = some event.timestamp := by
  unfold scoredEvent at h
  split at h
  · rename_i family timestamp hfamily htime
    split_ifs at h
    obtain rfl := Option.some.inj h
    exact ⟨rfl, rfl, htime⟩
  · cases h

theorem scored_total (e e' : ScoredEvent) : (ScoredEvent.le e e' || ScoredEvent.le e' e) = true := by
  unfold ScoredEvent.le
  rw [Bool.or_eq_true, decide_eq_true_eq, decide_eq_true_eq]
  rcases lt_trichotomy e.timestamp.val e'.timestamp.val with hlt | heq | hgt
  · exact .inl (.inl hlt)
  · rcases le_total e.identity e'.identity with hle | hle
    · exact .inl (.inr ⟨heq, hle⟩)
    · exact .inr (.inr ⟨heq.symm, hle⟩)
  · exact .inr (.inl hgt)

theorem scored_trans (e e' e'' : ScoredEvent) (h : ScoredEvent.le e e' = true) (h' : ScoredEvent.le e' e'' = true) :
    ScoredEvent.le e e'' = true := by
  unfold ScoredEvent.le at *
  rw [decide_eq_true_eq] at *
  rcases h with hlt | ⟨heq, hle⟩
  · rcases h' with hlt' | ⟨heq', -⟩
    · exact .inl (hlt.trans hlt')
    · exact .inl (heq' ▸ hlt)
  · rcases h' with hlt' | ⟨heq', hle'⟩
    · exact .inl (heq ▸ hlt')
    · exact .inr ⟨heq.trans heq', hle.trans hle'⟩

theorem scored_antisymm {e e' : ScoredEvent} (h : ScoredEvent.le e e' = true) (h' : ScoredEvent.le e' e = true) :
    e.identity = e'.identity := by
  unfold ScoredEvent.le at *
  rw [decide_eq_true_eq] at *
  rcases h with hlt | ⟨heq, hle⟩
  · rcases h' with hlt' | ⟨heq', -⟩
    · exact absurd hlt (lt_asymm hlt')
    · exact absurd heq' (ne_of_gt hlt)
  · rcases h' with hlt' | ⟨-, hle'⟩
    · exact absurd heq (ne_of_gt hlt')
    · exact le_antisymm hle hle'

/-- Two events of one identity are one event. -/
theorem scored_unique {rows : List Value} (h : DistinctIdentities py rows) {e e' : ScoredEvent}
    (he : e ∈ (rows.filter (identified py)).filterMap (scoredEvent py))
    (he' : e' ∈ (rows.filter (identified py)).filterMap (scoredEvent py))
    (hid : e.identity = e'.identity) :
    e = e' := by
  obtain ⟨row, hrow, hscored⟩ := List.mem_filterMap.1 he
  obtain ⟨row', hrow', hscored'⟩ := List.mem_filterMap.1 he'
  have hdict : ∀ row ∈ rows.filter (identified py), row ∈ rows.filter isDict := by
    intro row hrow
    obtain ⟨hmem, hident⟩ := List.mem_filter.1 hrow
    unfold identified at hident
    rw [Bool.and_eq_true] at hident
    exact List.mem_filter.2 ⟨hmem, hident.1⟩
  have hsame : row = row' := by
    refine List.inj_on_of_nodup_map h (hdict row hrow) (hdict row' hrow') ?_
    rw [← (scoredEvent_row hscored).2.1, ← (scoredEvent_row hscored').2.1, hid]
  rw [hsame, hscored'] at hscored
  exact (Option.some.inj hscored).symm

/-! ## The signals after the boundary -/

/-- The events a hypothesis is judged by come from the rows after its boundary. -/
theorem filter_scored (hypothesis : Hypothesis) {rows : List Value} (h : DistinctIdentities py rows) :
    ((deduplicatedEvents py rows).filterMap (scoredEvent py)).filter
        (fun event => event.family = hypothesis.family ∧ boundaryOf py hypothesis < event.timestamp.val) =
      (rows.filter (isAfter py hypothesis)).filterMap fun row =>
        if identified py row then (scoredEvent py row).filter fun event => event.family = hypothesis.family
        else none := by
  rw [deduplicatedEvents_eq h, List.filter_filterMap, List.filterMap_filter, List.filterMap_filter]
  refine List.filterMap_congr fun row _ => ?_
  by_cases hident : identified py row = true
  · rw [if_pos hident, if_pos hident]
    cases hscored : scoredEvent py row with
    | none => simp
    | some event =>
      have hafter : isAfter py hypothesis row = decide (boundaryOf py hypothesis < event.timestamp.val) := by
        unfold isAfter
        rw [(scoredEvent_row hscored).2.2]
        rfl
      rw [hafter]
      by_cases hlate : boundaryOf py hypothesis < event.timestamp.val
      · simp [hlate, Option.filter]
      · simp [hlate, Option.filter]
  · simp [hident]

/-- Two archives with the same rows after the boundary judge a hypothesis by the same events. -/
theorem futureFamilyEvents_congr (hypothesis : Hypothesis) {rows rows' : List Value}
    (h : DistinctIdentities py rows) (h' : DistinctIdentities py rows')
    (hagree : (rows.filter (isAfter py hypothesis)).Perm (rows'.filter (isAfter py hypothesis))) :
    futureFamilyEvents hypothesis (boundaryOf py hypothesis) (scoredEvents py rows) =
      futureFamilyEvents hypothesis (boundaryOf py hypothesis) (scoredEvents py rows') := by
  unfold futureFamilyEvents scoredEvents
  apply filter_mergeSort_congr scored_trans scored_total
  · rw [filter_scored hypothesis h, filter_scored hypothesis h']
    exact hagree.filterMap _
  · intro e he e' he' hle hle'
    have hmem := (List.mem_filter.1 he).1
    have hmem' := (List.mem_filter.1 he').1
    rw [deduplicatedEvents_eq h] at hmem hmem'
    exact scored_unique h hmem hmem' (scored_antisymm hle hle')

/-- The boundary of a hypothesis is looked up under its own id. -/
theorem boundary_of_mem {registry : Registry} {hypothesis : Hypothesis} (h : hypothesis ∈ registry.hypotheses) :
    ((validationBoundaries py registry.hypotheses).get? hypothesis.hypothesisId).getD 0 =
      boundaryOf py hypothesis := by
  unfold validationBoundaries
  have hkeys : ((registry.hypotheses.map fun hypothesis => (hypothesis.hypothesisId,
      ((timestampValue py hypothesis.validationStart).map Double.val).getD 0)).map Prod.fst).Nodup := by
    rw [List.map_map]
    exact registry.distinct
  rw [Dict.get?_ofList_of_mem hkeys (List.mem_map_of_mem h)]
  rfl

variable (py)

/-- No leakage into the validation. Let two archives, each without two rows of one event, agree on the
rows whose signal comes after the boundary of a hypothesis of the registry. Whatever else they hold, what is
computed for this hypothesis is the same, and so is its result in every two reports that come about; and if
the registry has one boundary, the two evaluations are the same as a whole. -/
theorem no_leakage (conv : Conversions) (registry : Registry) (i : Nat) (hypothesis : Hypothesis)
    (hi : registry.hypotheses[i]? = some hypothesis) (rows rows' : List Value)
    (h : DistinctIdentities py rows) (h' : DistinctIdentities py rows')
    (hagree : (rows.filter (isAfter py hypothesis)).Perm (rows'.filter (isAfter py hypothesis))) :
    hypothesisResult fl py conv (validationBoundaries py registry.hypotheses) (scoredEvents py rows) hypothesis =
        hypothesisResult fl py conv (validationBoundaries py registry.hypotheses) (scoredEvents py rows')
          hypothesis ∧
      (∀ results results', buildFutureValidation fl py conv rows registry = some results →
        buildFutureValidation fl py conv rows' registry = some results' → results[i]? = results'[i]?) ∧
      ((∀ other ∈ registry.hypotheses, boundaryOf py other = boundaryOf py hypothesis) →
        buildFutureValidation fl py conv rows registry = buildFutureValidation fl py conv rows' registry) := by
  have hresult : ∀ other ∈ registry.hypotheses, boundaryOf py other = boundaryOf py hypothesis →
      hypothesisResult fl py conv (validationBoundaries py registry.hypotheses) (scoredEvents py rows) other =
        hypothesisResult fl py conv (validationBoundaries py registry.hypotheses) (scoredEvents py rows') other := by
    intro other hother hboundary
    have hafter : isAfter py other = isAfter py hypothesis := by
      unfold isAfter
      rw [hboundary]
    unfold hypothesisResult
    rw [boundary_of_mem hother, futureFamilyEvents_congr other h h' (hafter ▸ hagree)]
  have hmem : hypothesis ∈ registry.hypotheses := List.mem_of_getElem? hi
  refine ⟨hresult hypothesis hmem rfl, ?_, ?_⟩
  · intro results results' hbuild hbuild'
    rw [getElem?_of_mapM hbuild hi, getElem?_of_mapM hbuild' hi]
    exact hresult hypothesis hmem rfl
  · intro hone
    exact mapM_congr_of_mem fun other hother => hresult other hother (hone other hother)

/-! ## Two archives -/

/-- Arithmetic without rounding. -/
def exactArithmetic : Arithmetic ℚ :=
  ⟨Double.val, fun n => n, (· + ·), (· - ·), (· * ·), (· / ·), (|·|), fun x y => x < y, fun x y => x ≤ y, Double.round,
    fun items => some items.sum, id, .float⟩

/-- A host for texts in capitals and times of the first day. -/
def firstDay : Host :=
  { plainTexts with
    text := fun value => match value with
      | .str s => s
      | _ => ""
    upper := id
    digest := fun value => match value.get "observation_id" with
      | .str s => s
      | _ => ""
    identityDigest := fun _ => "digest"
    day := fun _ => some "1970-01-01"
    week := fun _ => some "1970-W01" }

/-- A signal of a token. -/
def signalOf (observationId mint : String) (epoch : Double) : Value :=
  .ofItems [("observation_id", .str observationId), ("mint", .str mint), ("signal_type", .str "MOMENTUM"),
    ("signal_detected_at", .ofDouble epoch), ("quote_status", .str "EXECUTABLE")]

/-- What Python makes of the integers and texts here. -/
def textConversions : Conversions := ⟨fun _ => none, fun _ => none, fun _ => "", fun _ => ""⟩

/-- A hypothesis from the second 1000 on. -/
def volumeHypothesis : Hypothesis :=
  ⟨"momentum-v1", "MOMENTUM", ["volume_delta"], [⟨"volume_delta", "gt", .int 0⟩],
    .ofDouble (seconds 1000 exact_1000), Dict.empty⟩

def volumeRegistry : Registry := ⟨[volumeHypothesis], List.nodup_singleton _⟩

theorem timestampValue_ofDouble {epoch : Double} (h : 0 ≤ epoch.val) :
    timestampValue firstDay (.ofDouble epoch) = some epoch := if_pos h

theorem signalTimestamp_signalOf (observationId mint : String) {epoch : Double} (h : 0 ≤ epoch.val) :
    signalTimestamp firstDay (signalOf observationId mint epoch) = some epoch := by
  have hget : (signalOf observationId mint epoch).get "signal_detected_at" = .ofDouble epoch := rfl
  unfold signalTimestamp
  rw [List.findSome?_cons, hget, timestampValue_ofDouble h]

/-- An earlier signal of the same token changes nothing. -/
theorem no_leakage_earlierSignal :
    buildFutureValidation exactArithmetic firstDay textConversions
        [signalOf "a" "mint" (seconds 500 exact_500), signalOf "b" "mint" (seconds 2000 exact_2000)]
        volumeRegistry =
      buildFutureValidation exactArithmetic firstDay textConversions
        [signalOf "b" "mint" (seconds 2000 exact_2000)] volumeRegistry := by
  have hfirst : eventIdentity firstDay (signalOf "a" "mint" (seconds 500 exact_500)) = "a" := by rfl
  have hsecond : eventIdentity firstDay (signalOf "b" "mint" (seconds 2000 exact_2000)) = "b" := by rfl
  have hboundary : boundaryOf firstDay volumeHypothesis = 1000 := by
    have htime : timestampValue firstDay volumeHypothesis.validationStart = some (seconds 1000 exact_1000) :=
      timestampValue_ofDouble (by norm_num [seconds])
    unfold boundaryOf
    rw [htime]
    norm_num [seconds]
  refine (no_leakage exactArithmetic firstDay textConversions volumeRegistry 0 volumeHypothesis rfl _ _ ?_ ?_ ?_).2.2 ?_
  · show [eventIdentity firstDay (signalOf "a" "mint" (seconds 500 exact_500)),
      eventIdentity firstDay (signalOf "b" "mint" (seconds 2000 exact_2000))].Nodup
    rw [hfirst, hsecond]
    decide
  · exact List.nodup_singleton _
  · have hearly : isAfter firstDay volumeHypothesis (signalOf "a" "mint" (seconds 500 exact_500)) = false := by
      unfold isAfter
      rw [signalTimestamp_signalOf _ _ (by norm_num [seconds]), hboundary]
      norm_num [seconds]
    rw [List.filter_cons_of_neg (by rw [hearly]; simp)]
  · intro other hother
    rw [List.mem_singleton.1 hother]

end Leakage

end Aibot.Research
