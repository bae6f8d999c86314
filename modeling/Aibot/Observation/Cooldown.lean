/-
The cool-down of the experiment: two decisions find candidates of one mint eligible a day apart. The
check reads the rows of the ledger, so it misses a decision whose row the retention has dropped, one
whose observation was decided again, and one that was discovered well before it was decided; apart
from these the law holds over every run.
-/
import Aibot.Lib.Run
import Aibot.Observation.Effect

namespace Aibot.Observation

open Aibot.Risk

/-! ## Decisions and their rows -/

/-- What the check of the cool-down reads of a row. -/
structure Stamp where
  observationId : ObservationId
  mint : Mint
  eligible : Bool
  startedAtEpoch : Int
  deriving DecidableEq

def Row.stamp (row : Row) : Stamp :=
  ⟨row.observationId, row.mint, row.candidateV2Eligible, row.startedAtEpoch⟩

/-- An eligible candidate: when it was decided, from when its row counts, and whether the row is still
there as that decision left it. The rows that a run finds have no decision in it. -/
structure Candidate where
  observationId : ObservationId
  mint : Mint
  decidedAt : Option Int
  startedAtEpoch : Int
  kept : Bool
  deriving DecidableEq

/-- The stamp of the row that the decision left. -/
def Candidate.stamp (c : Candidate) : Stamp := ⟨c.observationId, c.mint, true, c.startedAtEpoch⟩

/-- Another decision is made for the observation. -/
def Candidate.redecided (decided : Option ObservationId) (c : Candidate) : Candidate :=
  { c with kept := c.kept && decided ≠ some c.observationId }

/-- The retention may drop the row. -/
def Candidate.retained (evicted : List Row) (c : Candidate) : Candidate :=
  { c with kept := c.kept && evicted.all fun row => row.observationId ≠ c.observationId }

/-- The observation that a call decides; one with an executable quote is decided already. -/
def ObservationOp.decides (rows : List Row) : ObservationOp → Option ObservationId
  | .decision r now =>
    match recordObservationDecision r now rows with
    | .ok (verdict, _) => if verdict.created then some verdict.observationId else none
    | .error _ => none
  | _ => none

/-- The candidate that a call finds eligible. -/
def ObservationOp.candidate (rows : List Row) : ObservationOp → Option Candidate
  | .decision r now =>
    match recordObservationDecision r now rows with
    | .ok (verdict, _) =>
      if verdict.created && verdict.candidateV2Eligible then
        some ⟨r.observationId, r.mint, some now,
          ((findRow rows r.observationId).map Row.startedAtEpoch).getD now, true⟩
      else none
    | .error _ => none
  | _ => none

/-- The ledger, and the eligible candidates so far. -/
structure CandidateLog where
  rows : List Row
  candidates : List Candidate

def CandidateLog.start (rows : List Row) : CandidateLog where
  rows := rows
  candidates := (rows.filter Row.candidateV2Eligible).map fun row =>
    ⟨row.observationId, row.mint, none, row.startedAtEpoch, true⟩

inductive CandidateAct
  | writes (op : ObservationOp)
  | markers (snapshots : List Row)

def CandidateLog.step (s : CandidateLog) : CandidateAct → Option CandidateLog
  | .writes op =>
    let w := op.write s.rows
    some {
      rows := w.rows
      candidates := (s.candidates.map (Candidate.redecided (op.decides s.rows)) ++
        (op.candidate s.rows).toList).map (Candidate.retained w.evicted) }
  | .markers snapshots =>
    let w := persistArchiveMarkers snapshots s.rows
    some { rows := w.rows, candidates := s.candidates.map (Candidate.retained w.evicted) }

/-- The decisions of the run that found a candidate eligible, with their mints. -/
def CandidateLog.decisions (s : CandidateLog) : List (Mint × Int) :=
  s.candidates.filterMap fun c => c.decidedAt.map fun at' => (c.mint, at')

/-- Two of them for one mint are a day apart. -/
def CooledDown (decisions : List (Mint × Int)) : Prop :=
  decisions.Pairwise fun a b => a.1 = b.1 → candidateV2MintCooldown ≤ b.2 - a.2

instance (decisions : List (Mint × Int)) : Decidable (CooledDown decisions) :=
  inferInstanceAs (Decidable (List.Pairwise _ _))

/-! ## The condition -/

/-- The decision is made: its arguments are accepted, and the observation has no executable quote. -/
def DecisionRequest.makes (r : DecisionRequest) (rows : List Row) : Prop :=
  r.valid ∧ ∀ row ∈ findRow rows r.observationId, row.quoteStatus ≠ "EXECUTABLE"

/-- A decision that is made, of a candidate that nothing but the cool-down keeps out. -/
def DecisionRequest.qualifies (r : DecisionRequest) (rows : List Row) : Prop :=
  r.makes rows ∧ r.routeType = .B ∧ r.decisionStatus = .approved ∧
    candidateV2MinScore ≤ r.dexMomentumScore ∧ r.dexMomentumScore < candidateV2MaxScore

/-- If a candidate of the mint was decided less than a day ago, one has its row still in the ledger,
was not decided again and started less than a day ago. -/
def CandidateLog.recalls (s : CandidateLog) (mint : Mint) (now : Int) : Prop :=
  (∃ c ∈ s.candidates, c.mint = mint ∧ ∃ at' ∈ c.decidedAt, now - at' < candidateV2MintCooldown) →
    ∃ c ∈ s.candidates, c.mint = mint ∧ c.kept ∧ now - c.startedAtEpoch < candidateV2MintCooldown

/-- Every decision that nothing else keeps out recalls the candidates of its mint. -/
def recallsCandidates (s : CandidateLog) : CandidateAct → Prop
  | .writes (.decision r now) => r.qualifies s.rows → s.recalls r.mint now
  | _ => True

/-! ## What a call does to the stamps -/

@[simp] theorem stamp_redecided (decided : Option ObservationId) (c : Candidate) :
    (c.redecided decided).stamp = c.stamp := rfl

@[simp] theorem stamp_retained (evicted : List Row) (c : Candidate) : (c.retained evicted).stamp = c.stamp := rfl

/-- The rows with a decision, before the expiry. -/
def DecisionRequest.saved (r : DecisionRequest) (now : Int) (rows : List Row) : List Row :=
  match findRow rows r.observationId with
  | some row => modifyRow rows r.observationId fun _ => r.row now (r.candidate now rows) (some row)
  | none => rows ++ [r.row now (r.candidate now rows) none]

theorem recordObservationDecision_made {r : DecisionRequest} {now : Int} {rows : List Row} (h : r.makes rows) :
    recordObservationDecision r now rows = .ok
      (⟨true, r.observationId, (r.candidate now rows).1, strategyVariants r.routeType r.dexMomentumScore⟩,
        .retain (expireObservationBacklog now (r.saved now rows))) := by
  obtain ⟨⟨hcost, hamount, hstatus⟩, hquote⟩ := h
  have hexisting : (findRow rows r.observationId).filter (fun row => row.quoteStatus = "EXECUTABLE") = none := by
    rw [Option.filter_eq_none_iff]
    simpa using hquote
  unfold recordObservationDecision
  rw [if_neg (by omega)]
  dsimp only
  rw [hexisting]
  dsimp only
  rw [if_neg (by tauto)]
  rfl

theorem recordObservationDecision_unmade {r : DecisionRequest} (now : Int) {rows : List Row}
    (h : ¬ r.makes rows) :
    (∃ e, recordObservationDecision r now rows = .error e) ∨
      ∃ verdict, recordObservationDecision r now rows = .ok (verdict, .keep rows) ∧ verdict.created = false := by
  unfold recordObservationDecision
  by_cases hpos : r.entryCostLamports ≤ 0 ∨ r.tokenAmountRaw ≤ 0
  · rw [if_pos hpos]
    exact .inl ⟨_, rfl⟩
  · rw [if_neg hpos]
    dsimp only
    split
    · exact .inr ⟨_, rfl, rfl⟩
    · rename_i hexisting
      rw [Option.filter_eq_none_iff] at hexisting
      by_cases hstatus : r.decisionStatus ≠ .approved ∧ r.decisionStatus ≠ .rejected
      · rw [if_pos hstatus]
        exact .inl ⟨_, rfl⟩
      · -- a call that gets this far makes its decision
        exact absurd ⟨⟨by omega, by omega, by tauto⟩, by simpa using hexisting⟩ h

/-- The stamp of the row of a decision. -/
def DecisionRequest.stamp (r : DecisionRequest) (now : Int) (rows : List Row) : Stamp :=
  ⟨r.observationId, r.mint, (r.candidate now rows).1,
    ((findRow rows r.observationId).map Row.startedAtEpoch).getD now⟩

/-- A decision changes the stamp of its row, or adds one. -/
theorem saved_stamps {rows : List Row} (hu : UniqueIds rows) (r : DecisionRequest) (now : Int) {st : Stamp} :
    st ∈ (r.saved now rows).map Row.stamp ↔
      st ∈ rows.map Row.stamp ∧ st.observationId ≠ r.observationId ∨ st = r.stamp now rows := by
  unfold DecisionRequest.saved DecisionRequest.stamp
  cases hf : findRow rows r.observationId with
  | none =>
    have hnew : ∀ row ∈ rows, row.observationId ≠ r.observationId := fun row hrow he =>
      findRow_none.1 hf (he ▸ List.mem_map_of_mem hrow)
    rw [List.map_append, List.mem_append]
    refine or_congr ?_ ?_
    · constructor
      · intro hmem
        refine ⟨hmem, ?_⟩
        obtain ⟨row, hrow, rfl⟩ := List.mem_map.1 hmem
        exact hnew row hrow
      · exact And.left
    · exact List.mem_singleton
  | some existing =>
    obtain ⟨hmem, hid⟩ := findRow_some hf
    dsimp only
    rw [modifyRow_eq_map hu, List.map_map]
    constructor
    · intro h
      obtain ⟨row, hrow, rfl⟩ := List.mem_map.1 h
      by_cases he : row.observationId = r.observationId
      · exact .inr (by simp [he, Row.stamp, DecisionRequest.row])
      · exact .inl (by simpa [he] using ⟨⟨row, hrow, rfl⟩, he⟩)
    · rintro (⟨h, hne⟩ | rfl)
      · obtain ⟨row, hrow, rfl⟩ := List.mem_map.1 h
        have he : row.observationId ≠ r.observationId := hne
        exact List.mem_map.2 ⟨row, hrow, by simp [he]⟩
      · exact List.mem_map.2 ⟨existing, hmem, by simp [hid, Row.stamp, DecisionRequest.row]⟩

theorem decision_made {r : DecisionRequest} (now : Int) {rows : List Row} (h : r.makes rows) :
    (ObservationOp.decision r now).decides rows = some r.observationId ∧
      (ObservationOp.decision r now).candidate rows = (if (r.candidate now rows).1 then
        some ⟨r.observationId, r.mint, some now,
          ((findRow rows r.observationId).map Row.startedAtEpoch).getD now, true⟩ else none) ∧
      ((ObservationOp.decision r now).write rows).touched = expireObservationBacklog now (r.saved now rows) := by
  simp only [ObservationOp.decides, ObservationOp.candidate, ObservationOp.write,
    recordObservationDecision_made h]
  refine ⟨rfl, ?_, rfl⟩
  simp

theorem decision_unmade {r : DecisionRequest} (now : Int) {rows : List Row} (h : ¬ r.makes rows) :
    (ObservationOp.decision r now).decides rows = none ∧
      (ObservationOp.decision r now).candidate rows = none ∧
      ((ObservationOp.decision r now).write rows).touched = rows := by
  simp only [ObservationOp.decides, ObservationOp.candidate, ObservationOp.write]
  rcases recordObservationDecision_unmade now h with ⟨e, he⟩ | ⟨verdict, he, hcreated⟩
  · rw [he]
    exact ⟨rfl, rfl, rfl⟩
  · rw [he]
    simp [hcreated, Except.map, Except.toOption]

/-- No edit but a decision changes the stamp of a row. -/
theorem Edit.stamp {rows : List Row} {op : ObservationOp} {row row' : Row} (h : Edit rows op row row')
    (hop : ∀ r now, op ≠ .decision r now) : row'.stamp = row.stamp := by
  cases h with
  | decided => exact absurd rfl (hop _ _)
  | sampled hs =>
    induction hs with
    | refl row => rfl
    | step _ _ _ _ ih => exact ih
  | same | finalized | marked | attempted | reconciled => rfl

/-- No row but that of a decision is added eligible. -/
theorem Fresh.notEligible {rows : List Row} {op : ObservationOp} {row : Row} (h : Fresh rows op row)
    (hop : ∀ r now, op ≠ .decision r now) : row.candidateV2Eligible = false := by
  cases h with
  | discovered => rfl
  | decided => exact absurd rfl (hop _ _)

theorem Aged.stamp {a b : Row} (h : Aged a b) : b.stamp = a.stamp := by cases h <;> rfl

/-- The eligible stamps of the rows a call writes: those it finds, without the one it decides, and the
one it finds eligible. -/
theorem touched_stamps {rows : List Row} (hu : UniqueIds rows) (op : ObservationOp) {st : Stamp}
    (hst : st.eligible = true) :
    st ∈ (op.write rows).touched.map Row.stamp ↔
      st ∈ rows.map Row.stamp ∧ op.decides rows ≠ some st.observationId ∨
        ∃ c ∈ op.candidate rows, st = c.stamp := by
  by_cases hdec : ∃ r now, op = .decision r now
  · obtain ⟨r, now, rfl⟩ := hdec
    by_cases hmade : r.makes rows
    · obtain ⟨hdecides, hcandidate, htouched⟩ := decision_made now hmade
      rw [htouched, map_expire Row.stamp now (fun _ => rfl), saved_stamps hu, hdecides, hcandidate]
      refine or_congr (by simp [eq_comm]) ?_
      cases helig : (r.candidate now rows).1 with
      | false =>
        simp only [Bool.false_eq_true, if_false, Option.mem_def, reduceCtorEq, false_and, exists_false, iff_false]
        rintro rfl
        simp [DecisionRequest.stamp, helig] at hst
      | true => simp [DecisionRequest.stamp, Candidate.stamp, helig]
    · obtain ⟨hdecides, hcandidate, htouched⟩ := decision_unmade now hmade
      simp [hdecides, hcandidate, htouched]
  · have hop : ∀ r now, op ≠ .decision r now := fun r now he => hdec ⟨r, now, he⟩
    have hdecides : op.decides rows = none := by
      cases op with
      | decision r now => exact absurd rfl (hop r now)
      | _ => rfl
    have hcandidate : op.candidate rows = none := by
      cases op with
      | decision r now => exact absurd rfl (hop r now)
      | _ => rfl
    obtain ⟨g, added, hg, hadded, -, htouched⟩ := (write_effect hu op).spec
    have hstamps : (op.write rows).touched.map Row.stamp = rows.map Row.stamp ++ added.map Row.stamp := by
      have hmap : (rows.map g ++ added).map Row.stamp = rows.map Row.stamp ++ added.map Row.stamp := by
        rw [List.map_append, List.map_map]
        congr 1
        exact List.map_congr_left fun row hrow => (hg row hrow).stamp hop
      rcases htouched with heq | ⟨now, heq⟩
      · rw [heq, hmap]
      · rw [heq, map_expire Row.stamp now (fun _ => rfl), hmap]
    -- the rows that another call adds are not eligible
    have hnew : st ∉ added.map Row.stamp := by
      intro hmem
      obtain ⟨row, hrow, rfl⟩ := List.mem_map.1 hmem
      replace hst : row.candidateV2Eligible = true := hst
      rw [(hadded row hrow).notEligible hop] at hst
      cases hst
    simp [hstamps, hdecides, hcandidate, hnew]

theorem candidate_kept {rows : List Row} {op : ObservationOp} {c : Candidate} (h : c ∈ op.candidate rows) :
    c.kept = true := by
  cases op with
  | decision r now =>
    by_cases hmade : r.makes rows
    · rw [(decision_made _ hmade).2.1] at h
      split_ifs at h
      · obtain rfl := Option.some.inj h
        rfl
      · cases h
    · rw [(decision_unmade _ hmade).2.1] at h
      cases h
  | _ => cases h

/-! ## The invariant -/

/-- The eligible rows are the candidates that are kept. -/
structure CandidateInv (s : CandidateLog) : Prop where
  unique : UniqueIds s.rows
  eligible : ∀ st : Stamp, st.eligible = true →
    (st ∈ s.rows.map Row.stamp ↔ ∃ c ∈ s.candidates, c.kept = true ∧ st = c.stamp)

/-- The rows that are saved are those that are not evicted. -/
theorem mem_saved {w : Write} (hu : UniqueIds w.touched) {row : Row} :
    row ∈ w.rows ↔ row ∈ w.touched ∧ ∀ dropped ∈ w.evicted, dropped.observationId ≠ row.observationId := by
  have hids := (w.rows_perm.map Row.observationId).nodup_iff.2 hu
  rw [List.map_append, List.nodup_append] at hids
  constructor
  · intro hrow
    refine ⟨w.rows_sublist.subset hrow, fun dropped hdropped he => ?_⟩
    exact hids.2.2 _ (List.mem_map_of_mem hrow) _ (List.mem_map_of_mem hdropped) he.symm
  · rintro ⟨htouched, hne⟩
    exact (Write.saved_or_evicted htouched).resolve_right fun hmem => hne row hmem rfl

/-- The retention, applied to rows and candidates alike. -/
theorem CandidateInv.saved {w : Write} (hu : UniqueIds w.touched) {candidates : List Candidate}
    (h : ∀ st : Stamp, st.eligible = true →
      (st ∈ w.touched.map Row.stamp ↔ ∃ c ∈ candidates, c.kept = true ∧ st = c.stamp)) :
    CandidateInv ⟨w.rows, candidates.map (Candidate.retained w.evicted)⟩ := by
  refine ⟨hu.sublist (w.rows_sublist.map _), fun st hst => ?_⟩
  constructor
  · intro hmem
    obtain ⟨row, hrow, rfl⟩ := List.mem_map.1 hmem
    obtain ⟨htouched, hkept⟩ := (mem_saved hu).1 hrow
    obtain ⟨c, hc, hck, hstamp⟩ := (h row.stamp hst).1 (List.mem_map_of_mem htouched)
    refine ⟨c.retained w.evicted, List.mem_map_of_mem hc, ?_, hstamp⟩
    have hid : row.observationId = c.observationId := congrArg Stamp.observationId hstamp
    simp only [Candidate.retained, hck, Bool.true_and, List.all_eq_true]
    intro dropped hdropped
    simpa [hid] using hkept dropped hdropped
  · rintro ⟨c', hc', hkept, rfl⟩
    obtain ⟨c, hc, rfl⟩ := List.mem_map.1 hc'
    simp only [Candidate.retained, Bool.and_eq_true, List.all_eq_true] at hkept
    obtain ⟨row, hrow, hstamp⟩ := List.mem_map.1 ((h c.stamp rfl).2 ⟨c, hc, hkept.1, rfl⟩)
    have hid : row.observationId = c.observationId := congrArg Stamp.observationId hstamp
    refine List.mem_map.2 ⟨row, (mem_saved hu).2 ⟨hrow, fun dropped hdropped => ?_⟩, hstamp⟩
    simpa [hid] using hkept.2 dropped hdropped

theorem candidateInv_start {rows : List Row} (hu : UniqueIds rows) : CandidateInv (.start rows) := by
  refine ⟨hu, fun st hst => ?_⟩
  constructor
  · intro hmem
    obtain ⟨row, hrow, rfl⟩ := List.mem_map.1 hmem
    refine ⟨_, List.mem_map_of_mem (List.mem_filter.2 ⟨hrow, hst⟩), rfl, ?_⟩
    replace hst : row.candidateV2Eligible = true := hst
    simp [Row.stamp, Candidate.stamp, hst]
  · rintro ⟨c, hc, -, rfl⟩
    obtain ⟨row, hrow, rfl⟩ := List.mem_map.1 hc
    obtain ⟨hmem, helig⟩ := List.mem_filter.1 hrow
    refine List.mem_map.2 ⟨row, hmem, ?_⟩
    simp [Row.stamp, Candidate.stamp, helig]

theorem candidateInv_step {s s' : CandidateLog} {a : CandidateAct} (hs : CandidateInv s)
    (h : s.step a = some s') : CandidateInv s' := by
  cases a with
  | writes op =>
    obtain rfl := Option.some.inj h
    refine CandidateInv.saved ((write_effect hs.unique op).unique hs.unique) fun st hst => ?_
    rw [touched_stamps hs.unique op hst, hs.eligible st hst]
    constructor
    · rintro (⟨⟨c, hc, hkept, rfl⟩, hne⟩ | ⟨c, hc, rfl⟩)
      · refine ⟨c.redecided (op.decides s.rows), ?_, ?_, rfl⟩
        · exact List.mem_append_left _ (List.mem_map_of_mem hc)
        · simpa [Candidate.redecided, Candidate.stamp, hkept] using hne
      · exact ⟨c, List.mem_append_right _ (Option.mem_toList.2 hc), candidate_kept hc, rfl⟩
    · rintro ⟨c', hc', hkept, rfl⟩
      rcases List.mem_append.1 hc' with hc' | hc'
      · obtain ⟨c, hc, rfl⟩ := List.mem_map.1 hc'
        simp only [Candidate.redecided, Bool.and_eq_true, decide_eq_true_eq] at hkept
        exact .inl ⟨⟨c, hc, hkept.1, rfl⟩, hkept.2⟩
      · exact .inr ⟨c', Option.mem_toList.1 hc', rfl⟩
  | markers snapshots =>
    obtain rfl := Option.some.inj h
    have hids := map_persist snapshots s.rows
    obtain ⟨markers, htouched⟩ := persist_map snapshots s.rows
    have hu : UniqueIds (persistArchiveMarkers snapshots s.rows).touched := by
      unfold UniqueIds
      rw [hids]
      exact hs.unique
    refine CandidateInv.saved hu fun st hst => ?_
    have hstamps : (persistArchiveMarkers snapshots s.rows).touched.map Row.stamp = s.rows.map Row.stamp := by
      rw [htouched, List.map_map]
      refine List.map_congr_left fun row _ => ?_
      obtain ⟨archivedAt, he⟩ := withMarker_row markers row
      show (row.withMarker markers).stamp = _
      rw [he]
      rfl
    rw [hstamps]
    exact hs.eligible st hst

/-! ## The check of the cool-down -/

/-- What the check finds: a candidate of the mint that is kept and started less than a day ago. -/
theorem seenWithinCooldown_iff {s : CandidateLog} (hs : CandidateInv s) {mint : Mint} {now : Int} :
    seenWithinCooldown s.rows mint now = true ↔
      ∃ c ∈ s.candidates, c.mint = mint ∧ c.kept = true ∧ now - c.startedAtEpoch < candidateV2MintCooldown := by
  unfold seenWithinCooldown
  rw [List.any_eq_true]
  constructor
  · rintro ⟨row, hrow, h⟩
    simp only [Bool.and_eq_true, decide_eq_true_eq] at h
    obtain ⟨⟨hmint, helig⟩, hago⟩ := h
    obtain ⟨c, hc, hkept, hstamp⟩ := (hs.eligible row.stamp helig).1 (List.mem_map_of_mem hrow)
    have hcm : row.mint = c.mint := congrArg Stamp.mint hstamp
    have hcs : row.startedAtEpoch = c.startedAtEpoch := congrArg Stamp.startedAtEpoch hstamp
    exact ⟨c, hc, hcm ▸ hmint, hkept, hcs ▸ hago⟩
  · rintro ⟨c, hc, rfl, hkept, hago⟩
    obtain ⟨row, hrow, hstamp⟩ := List.mem_map.1 ((hs.eligible c.stamp rfl).2 ⟨c, hc, hkept, rfl⟩)
    have hcm : row.mint = c.mint := congrArg Stamp.mint hstamp
    have hce : row.candidateV2Eligible = true := congrArg Stamp.eligible hstamp
    have hcs : row.startedAtEpoch = c.startedAtEpoch := congrArg Stamp.startedAtEpoch hstamp
    exact ⟨row, hrow, by simp [hcm, hce, hcs, hago]⟩

theorem candidate_eligible {r : DecisionRequest} {now : Int} {rows : List Row} (hmade : r.makes rows) :
    (r.candidate now rows).1 = true ↔ r.qualifies rows ∧ seenWithinCooldown rows r.mint now = false := by
  unfold DecisionRequest.candidate DecisionRequest.qualifies
  dsimp only
  rw [apply_ite Prod.fst]
  cases hseen : seenWithinCooldown rows r.mint now with
  | true =>
    simp only [Bool.true_eq_false, and_false, iff_false]
    intro h
    split_ifs at h with hq
    exact hq ⟨of_decide_eq_true h, trivial⟩
  | false => simp [hmade]

/-! ## The law -/

section Law

variable {s s' : CandidateLog}

theorem decisions_append (rows : List Row) (l l' : List Candidate) :
    CandidateLog.decisions ⟨rows, l ++ l'⟩ =
      CandidateLog.decisions ⟨rows, l⟩ ++ CandidateLog.decisions ⟨rows, l'⟩ :=
  List.filterMap_append

/-- What becomes of a row changes no decision. -/
theorem decisions_map (rows rows' : List Row) (l : List Candidate) {f : Candidate → Candidate}
    (hf : ∀ c, (f c).decidedAt = c.decidedAt ∧ (f c).mint = c.mint) :
    CandidateLog.decisions ⟨rows, l.map f⟩ = CandidateLog.decisions ⟨rows', l⟩ := by
  unfold CandidateLog.decisions
  rw [List.filterMap_map]
  refine List.filterMap_congr fun c _ => ?_
  simp [(hf c).1, (hf c).2]

theorem mem_decisions {d : Mint × Int} :
    d ∈ s.decisions ↔ ∃ c ∈ s.candidates, c.mint = d.1 ∧ d.2 ∈ c.decidedAt := by
  unfold CandidateLog.decisions
  simp only [List.mem_filterMap, Option.map_eq_some_iff, Option.mem_def]
  constructor
  · rintro ⟨c, hc, at', hat, rfl⟩
    exact ⟨c, hc, rfl, hat⟩
  · rintro ⟨c, hc, hm, hat⟩
    exact ⟨c, hc, d.2, hat, Prod.ext hm rfl⟩

/-- A step adds the decision that finds a candidate eligible, or none. -/
theorem step_decisions {a : CandidateAct} (h : s.step a = some s') :
    (∃ r now, a = .writes (.decision r now) ∧ r.qualifies s.rows ∧
      seenWithinCooldown s.rows r.mint now = false ∧ s'.decisions = s.decisions ++ [(r.mint, now)]) ∨
    (∀ r now, a = .writes (.decision r now) → r.qualifies s.rows →
      seenWithinCooldown s.rows r.mint now = true) ∧ s'.decisions = s.decisions := by
  cases a with
  | markers snapshots =>
    obtain rfl := Option.some.inj h
    exact .inr ⟨nofun, decisions_map _ _ _ fun _ => ⟨rfl, rfl⟩⟩
  | writes op =>
    obtain rfl := Option.some.inj h
    have hlog : ∀ w : Write, CandidateLog.decisions ⟨w.rows,
        (s.candidates.map (Candidate.redecided (op.decides s.rows)) ++
          (op.candidate s.rows).toList).map (Candidate.retained w.evicted)⟩ =
        s.decisions ++ CandidateLog.decisions ⟨s.rows, (op.candidate s.rows).toList⟩ := by
      intro w
      rw [decisions_map w.rows s.rows _ (f := Candidate.retained w.evicted) fun _ => ⟨rfl, rfl⟩, decisions_append,
        decisions_map s.rows s.rows _ (f := Candidate.redecided _) fun _ => ⟨rfl, rfl⟩]
    by_cases hdec : ∃ r now, op = .decision r now
    · obtain ⟨r, now, rfl⟩ := hdec
      by_cases hmade : r.makes s.rows
      · have hcandidate := (decision_made now hmade).2.1
        by_cases helig : (r.candidate now s.rows).1 = true
        · obtain ⟨hq, hseen⟩ := (candidate_eligible hmade).1 helig
          refine .inl ⟨r, now, rfl, hq, hseen, (hlog _).trans ?_⟩
          rw [hcandidate, if_pos helig]
          rfl
        · refine .inr ⟨?_, (hlog _).trans ?_⟩
          · rintro r' now' ⟨⟩ hq
            by_contra hseen
            exact helig ((candidate_eligible hmade).2 ⟨hq, by simpa using hseen⟩)
          · rw [hcandidate, if_neg helig]
            exact List.append_nil _
      · refine .inr ⟨?_, (hlog _).trans ?_⟩
        · rintro r' now' ⟨⟩ hq
          exact absurd hq.1 hmade
        · rw [(decision_unmade now hmade).2.1]
          exact List.append_nil _
    · refine .inr ⟨?_, (hlog _).trans ?_⟩
      · rintro r now ⟨⟩
        exact absurd ⟨r, now, rfl⟩ hdec
      · have hcandidate : op.candidate s.rows = none := by
          cases op with
          | decision r now => exact absurd ⟨r, now, rfl⟩ hdec
          | _ => rfl
        rw [hcandidate]
        exact List.append_nil _

/-- A step keeps the law exactly when it recalls the candidates of its mint. -/
theorem cooledDown_step {a : CandidateAct} (hs : CandidateInv s) (hlaw : CooledDown s.decisions)
    (h : s.step a = some s') : CooledDown s'.decisions ↔ recallsCandidates s a := by
  rcases step_decisions h with ⟨r, now, rfl, hq, hseen, hnew⟩ | ⟨hnone, hsame⟩
  · have hfree : ¬ ∃ c ∈ s.candidates, c.mint = r.mint ∧ c.kept = true ∧
        now - c.startedAtEpoch < candidateV2MintCooldown := by
      rw [← seenWithinCooldown_iff hs, hseen]
      exact Bool.false_ne_true
    have hok : recallsCandidates s (.writes (.decision r now)) ↔
        ∀ d ∈ s.decisions, d.1 = r.mint → candidateV2MintCooldown ≤ now - d.2 := by
      constructor
      · intro hok d hd hm
        obtain ⟨c, hc, hcm, hat⟩ := mem_decisions.1 hd
        by_contra hsoon
        exact hfree (hok hq ⟨c, hc, hcm.trans hm, d.2, hat, by omega⟩)
      · rintro hall - ⟨c, hc, hcm, at', hat, hsoon⟩
        have := hall (c.mint, at') (mem_decisions.2 ⟨c, hc, rfl, hat⟩) hcm
        omega
    rw [hok, hnew]
    unfold CooledDown
    rw [List.pairwise_append]
    constructor
    · rintro ⟨-, -, hall⟩ d hd
      exact hall d hd (r.mint, now) List.mem_cons_self
    · intro hall
      refine ⟨hlaw, List.pairwise_singleton _ _, fun d hd e he => ?_⟩
      obtain rfl := List.mem_singleton.1 he
      exact hall d hd
  · rw [hsame]
    refine ⟨fun _ => ?_, fun _ => hlaw⟩
    cases a with
    | markers snapshots => trivial
    | writes op =>
      cases op with
      | decision r now => exact fun hq _ => (seenWithinCooldown_iff hs).1 (hnone r now rfl hq)
      | _ => trivial

end Law

/-- The cool-down over a run: the decisions that find candidates of one mint eligible are a day apart,
exactly when each decision that nothing else keeps out recalls the candidates of its mint. -/
theorem cooled_down_iff {rows : List Row} (hrows : UniqueIds rows) {acts : List CandidateAct} {s : CandidateLog}
    (h : Run CandidateLog.step Run.anyStep (.start rows) acts s) :
    CooledDown s.decisions ↔ Run CandidateLog.step recallsCandidates (.start rows) acts s := by
  have hstart : CooledDown (CandidateLog.start rows).decisions := by
    have hnil : (CandidateLog.start rows).decisions = [] := by
      simp [CandidateLog.decisions, CandidateLog.start, List.filterMap_map]
    rw [hnil]
    exact List.Pairwise.nil
  refine Run.law_iff CandidateInv (fun s => CooledDown s.decisions)
    (fun _ _ _ hs h => candidateInv_step hs h) ?_ (fun _ _ _ hs hl h => cooledDown_step hs hl h) h
    (candidateInv_start hrows) hstart
  intro s a s' h hlaw
  rcases step_decisions h with ⟨r, now, -, -, -, hnew⟩ | ⟨-, hsame⟩
  · rw [hnew] at hlaw
    exact (List.pairwise_append.1 hlaw).1
  · rw [hsame] at hlaw
    exact hlaw

/-- An approved decision of route B whose score makes an eligible candidate. -/
def eligibleDecision (signature : String) : DecisionRequest :=
  { sampleDecision with routeType := .B, sourceSignature := signature, dexMomentumScore := 95 }

/-- The second decision comes too soon, the third a day after the first. -/
theorem cooled_down_iff_threeDecisions : ∃ s,
    Run CandidateLog.step Run.anyStep (.start [])
      [.writes (.decision (eligibleDecision "first") 1000000000),
        .writes (.decision (eligibleDecision "second") (1000000000 + 86399000000)),
        .writes (.decision (eligibleDecision "third") (1000000000 + 86400000000))] s ∧
    s.decisions = [("mint", 1000000000), ("mint", 1000000000 + 86400000000)] ∧
    Run CandidateLog.step recallsCandidates (.start [])
      [.writes (.decision (eligibleDecision "first") 1000000000),
        .writes (.decision (eligibleDecision "second") (1000000000 + 86399000000)),
        .writes (.decision (eligibleDecision "third") (1000000000 + 86400000000))] s := by
  obtain ⟨s, hrun, hdecisions, hlaw⟩ : ∃ s,
      Run CandidateLog.step Run.anyStep (.start [])
        [.writes (.decision (eligibleDecision "first") 1000000000),
          .writes (.decision (eligibleDecision "second") (1000000000 + 86399000000)),
          .writes (.decision (eligibleDecision "third") (1000000000 + 86400000000))] s ∧
      s.decisions = [("mint", 1000000000), ("mint", 1000000000 + 86400000000)] ∧ CooledDown s.decisions :=
    Run.exists_of_any (by decide +kernel)
  have hrows : UniqueIds [] := List.nodup_nil
  exact ⟨s, hrun, hdecisions, (cooled_down_iff hrows hrun).1 hlaw⟩

/-- The clock reading of a decision. -/
def CandidateAct.decidedAt : CandidateAct → Option Int
  | .writes (.decision _ now) => some now
  | _ => none

def discoveryOf (r : DecisionRequest) : DiscoveryRequest :=
  ⟨r.mint, r.routeType, r.sourceWallet, r.sourceSignature, r.tokenAmountRaw, r.dexMomentumScore⟩

/-- A candidate is discovered at 0 and decided after an hour; a day after its discovery, and so 23 hours
after its decision, another of its mint is eligible too. -/
theorem cooldown_from_discovery : ¬ ∀ (acts : List CandidateAct) (s : CandidateLog),
    (acts.filterMap CandidateAct.decidedAt).Pairwise (· ≤ ·) →
    Run CandidateLog.step Run.anyStep (.start []) acts s → CooledDown s.decisions := by
  intro hall
  obtain ⟨s, hrun, hlaw⟩ : ∃ s,
      Run CandidateLog.step Run.anyStep (.start [])
        [.writes (.discovery (discoveryOf (eligibleDecision "first")) 0),
          .writes (.decision (eligibleDecision "first") 3600000000),
          .writes (.decision (eligibleDecision "second") 86400000000)] s ∧ ¬ CooledDown s.decisions :=
    Run.exists_of_any (by decide +kernel)
  exact hlaw (hall _ s (by decide) hrun)

end Aibot.Observation
