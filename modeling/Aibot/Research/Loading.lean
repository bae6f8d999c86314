/-
`research_archive.load_research_archive`: one pass over the record files, in the order in which the file
system has them, that keeps the newest rows of a cohort. What it returns does not depend on that order,
and a file that is no record makes it raise in every order.
-/
import Aibot.Lib.Double
import Aibot.Lib.Largest
import Aibot.Research.Once
import Mathlib.Data.Prod.Lex
import Mathlib.Data.String.Basic

namespace Aibot.Research

open Observation.Stored (Conversions Fields)
open Store (JsonDocument Files Codec)

/-! ## The key of a row -/

section Key

variable (py : Conversions)
  -- the epoch of `datetime.fromisoformat(value.strip().replace("Z", "+00:00"))`, none where it raises or
  -- the time is naive
  (fromisoformat : String → Option ℚ)

/-- `float(value)`, none where it raises or is not finite. -/
def numberOf : Json → Option ℚ
  | .int n => (Double.round n).map Double.val
  | .float q => some q
  | .str s => py.float s
  | _ => none

/-- `_timestamp`. -/
def timestampOf : Json → ℚ
  | .bool _ => 0
  | value =>
    match (numberOf py value).filter (0 ≤ ·) with
    | some number => number
    | none =>
      match value with
      | .str s => (fromisoformat s).getD 0
      | _ => 0

/-- `_record_sort_key`. -/
def recordSortKey (row : Fields) : ℚ ×ₗ String :=
  let time (key : String) := timestampOf py fromisoformat (row.field key)
  toLex
    (if time "signal_detected_at" ≠ 0 then time "signal_detected_at"
      else if time "started_at_epoch" ≠ 0 then time "started_at_epoch"
      else time "started_at",
    observationIdOf py row)

end Key

/-! ## The pass over the files -/

inductive LoadError
  /-- `read_json` raises. -/
  | unreadable
  | unsupportedSchema
  | malformedObservation
  | identityMismatch
  deriving DecidableEq

/-- A file under `records`, with its `st_size`. -/
structure ArchiveFile where
  contents : List Json.Token
  size : Nat

/-- The row of a record file. -/
def readRecord (py : Conversions) (contents : List Json.Token) : Except LoadError Fields :=
  match (Codec.load contents : Option JsonDocument) with
  | none => .error .unreadable
  | some document =>
    if ¬ (document.field "archive_schema_version").eqInt archiveSchemaVersion then .error .unsupportedSchema
    else
      match (document.field "observation").fields? with
      | none => .error .malformedObservation
      | some row =>
        if observationIdOf py row ≠ py.text ((document.field "observation_id").orElse (.str "")) then
          .error .identityMismatch
        else .ok row

def defaultCohort : String := "research_v1_60m"

/-- The variables of the loop. The heap is kept in ascending order; two rows of one key would not
compare, and no archive has two. -/
structure Scan where
  heap : List ((ℚ ×ₗ String) × Fields) := []
  total : Nat := 0
  cohortCount : Nat := 0
  totalBytes : Nat := 0

structure LoadStatistics where
  archiveTotalRows : Nat
  archiveTotalBytes : Nat
  cohort : String
  cohortRowCount : Nat
  researchV1Rows : Option Nat
  loadedCohortRowCount : Nat

section Load

variable (py : Conversions) (fromisoformat : String → Option ℚ) (trackingProfile : String) (limit : Nat)

/-- A row that was read. -/
def Scan.take (s : Scan) (size : Nat) (row : Fields) : Scan :=
  if (row.field "tracking_profile").isStr trackingProfile then
    { heap := Largest.offer Prod.fst limit s.heap (recordSortKey py fromisoformat row, row)
      total := s.total + 1
      cohortCount := s.cohortCount + 1
      totalBytes := s.totalBytes + size }
  else { s with total := s.total + 1, totalBytes := s.totalBytes + size }

def Scan.file (s : Scan) (file : ArchiveFile) : Except LoadError Scan :=
  (readRecord py file.contents).map (s.take py fromisoformat trackingProfile limit file.size)

/-- What the pass returns. -/
def Scan.result (s : Scan) : List Fields × LoadStatistics :=
  let rows := (s.heap.insertionSort fun a b => a.1 ≤ b.1).map Prod.snd
  (rows,
    { archiveTotalRows := s.total
      archiveTotalBytes := s.totalBytes
      cohort := trackingProfile
      cohortRowCount := s.cohortCount
      researchV1Rows := if trackingProfile = defaultCohort then some s.cohortCount else none
      loadedCohortRowCount := rows.length })

end Load

/-- `max(1, int(maximum_rows))`. -/
def rowLimit (maximumRows : Int) : Nat := (max 1 maximumRows).toNat

/-- `load_research_archive`, of the files in the order in which the file system has them. -/
def loadResearchArchive (py : Conversions) (fromisoformat : String → Option ℚ) (trackingProfile : String)
    (maximumRows : Int) (files : List ArchiveFile) : Except LoadError (List Fields × LoadStatistics) :=
  (files.foldlM (Scan.file py fromisoformat trackingProfile (rowLimit maximumRows)) {}).map
    (Scan.result trackingProfile)

/-! ## The pass as a whole -/

section Pass

variable (py : Conversions) (fromisoformat : String → Option ℚ) (trackingProfile : String) (limit : Nat)

/-- The row of the cohort in a file, with its key. -/
def cohortItem (file : ArchiveFile) : Option ((ℚ ×ₗ String) × Fields) :=
  match readRecord py file.contents with
  | .error _ => none
  | .ok row =>
    if (row.field "tracking_profile").isStr trackingProfile then some (recordSortKey py fromisoformat row, row)
    else none

/-- What the loop has after files that are all records. -/
def Scan.after (s : Scan) (files : List ArchiveFile) : Scan where
  heap := (files.filterMap (cohortItem py fromisoformat trackingProfile)).foldl (Largest.offer Prod.fst limit) s.heap
  total := s.total + files.length
  cohortCount := s.cohortCount + (files.filterMap (cohortItem py fromisoformat trackingProfile)).length
  totalBytes := s.totalBytes + (files.map (·.size)).sum

variable {py fromisoformat trackingProfile limit}

theorem foldlM_file : ∀ {files : List ArchiveFile} (s : Scan),
    (∀ file ∈ files, ∃ row, readRecord py file.contents = .ok row) →
    files.foldlM (Scan.file py fromisoformat trackingProfile limit) s =
      .ok (s.after py fromisoformat trackingProfile limit files)
  | [], s, _ => rfl
  | file :: files, s, h => by
    obtain ⟨row, hrow⟩ := h file List.mem_cons_self
    have hstep : s.file py fromisoformat trackingProfile limit file =
        .ok (s.take py fromisoformat trackingProfile limit file.size row) := by
      unfold Scan.file
      rw [hrow]
      rfl
    have hitem : cohortItem py fromisoformat trackingProfile file =
        if (row.field "tracking_profile").isStr trackingProfile then some (recordSortKey py fromisoformat row, row)
        else none := by
      unfold cohortItem
      rw [hrow]
    rw [List.foldlM_cons, hstep]
    show files.foldlM _ (s.take py fromisoformat trackingProfile limit file.size row) = _
    rw [foldlM_file _ fun file' hfile => h file' (List.mem_cons_of_mem _ hfile)]
    unfold Scan.after Scan.take
    rw [List.filterMap_cons, hitem]
    split_ifs with hcohort
    · simp [Nat.add_assoc, Nat.add_comm, Nat.add_left_comm]
    · simp [Nat.add_assoc, Nat.add_comm, Nat.add_left_comm]

/-- A file that is no record makes the loop raise, wherever it is. -/
theorem foldlM_file_error : ∀ {files : List ArchiveFile} (s : Scan) {file : ArchiveFile} {e : LoadError},
    file ∈ files → readRecord py file.contents = .error e →
    ∃ e', files.foldlM (Scan.file py fromisoformat trackingProfile limit) s = .error e'
  | file' :: files, s, file, e, hmem, he => by
    rw [List.foldlM_cons]
    cases hread : readRecord py file'.contents with
    | error e' =>
      refine ⟨e', ?_⟩
      unfold Scan.file
      rw [hread]
      rfl
    | ok row =>
      have hstep : s.file py fromisoformat trackingProfile limit file' =
          .ok (s.take py fromisoformat trackingProfile limit file'.size row) := by
        unfold Scan.file
        rw [hread]
        rfl
      rw [hstep]
      rcases List.mem_cons.1 hmem with rfl | hmem
      · rw [he] at hread
        cases hread
      · exact foldlM_file_error _ hmem he

/-- Files in another order. -/
theorem result_perm {files files' : List ArchiveFile} (hperm : files.Perm files')
    (hdistinct : (files.filterMap (cohortItem py fromisoformat trackingProfile)).Pairwise fun a b => a.1 ≠ b.1)
    (hlimit : 0 < limit) :
    Scan.result trackingProfile (Scan.after py fromisoformat trackingProfile limit {} files) =
      Scan.result trackingProfile (Scan.after py fromisoformat trackingProfile limit {} files') := by
  have hitems := hperm.filterMap (cohortItem py fromisoformat trackingProfile)
  have hdistinct' := hitems.pairwise hdistinct fun h => h.symm
  have hheap : (files.filterMap (cohortItem py fromisoformat trackingProfile)).foldl
      (Largest.offer Prod.fst limit) [] =
        (files'.filterMap (cohortItem py fromisoformat trackingProfile)).foldl (Largest.offer Prod.fst limit) [] := by
    refine (Largest.greatest_of_stream hlimit hdistinct).unique ?_
    have hset : {a | a ∈ files.filterMap (cohortItem py fromisoformat trackingProfile)} =
        {a | a ∈ files'.filterMap (cohortItem py fromisoformat trackingProfile)} :=
      Set.ext fun a => hitems.mem_iff
    rw [hset]
    exact Largest.greatest_of_stream hlimit hdistinct'
  unfold Scan.after
  rw [hheap, hperm.length_eq, hitems.length_eq, (hperm.map (·.size)).sum_eq]

end Pass

/-! ## The archive -/

section Records

variable {κ : Type*} {py : Conversions} {digest : String → κ}

/-- A visible file has the record of a row with this digest. -/
def Recorded (py : Conversions) (digest : String → κ) (p : κ) (f : Files Json.Token) : Prop :=
  ∀ i, f.path = some i → ∃ call : ArchiveCall,
    digest (call.identity py) = p ∧ Codec.load (f.data i) = some (call.document py)

/-- The only step that makes a file visible publishes what the call has written. -/
theorem stepArchive_path {c : Nat} {call : ArchiveCall} {f : Files Json.Token} {phase : ArchivePhase}
    {event : ArchiveEvent} {x : Files Json.Token × ArchivePhase × Bool}
    (h : stepArchive py c call f phase event = some x) :
    x.1.path = f.path ∨ ∃ i, phase = .flushed i ∧ x.1 = f.replace i := by
  have hsame : ∀ f' : Files Json.Token, ∀ y : ArchivePhase × Bool, some (f', y) = some x → f'.path = f.path →
      x.1.path = f.path ∨ ∃ i, phase = .flushed i ∧ x.1 = f.replace i := by
    rintro f' y ⟨⟩ hpath
    exact .inl hpath
  cases phase with
  | looking | opening =>
    cases event <;> simp only [stepArchive, reduceCtorEq] at h
    case «exists» => split at h <;> exact hsame _ _ h rfl
    all_goals exact hsame _ _ h rfl
  | waiting =>
    cases event <;> simp only [stepArchive, reduceCtorEq] at h
    case acquire =>
      split_ifs at h
      exact hsame _ _ h rfl
    all_goals exact hsame _ _ h rfl
  | found locked =>
    cases event <;> simp only [stepArchive, reduceCtorEq] at h
    case opens => split at h <;> exact hsame _ _ h rfl
    case raises => cases locked <;> exact hsame _ _ h rfl
    case crash => exact hsame _ _ h rfl
  | reading locked i got =>
    cases event <;> simp only [stepArchive, reduceCtorEq] at h
    case readFragment =>
      obtain ⟨fragment, -, h⟩ := Option.map_eq_some_iff.1 h
      exact hsame _ _ (congrArg some h) rfl
    case finishReading =>
      split_ifs at h
      all_goals split at h <;> exact hsame _ _ h rfl
    case raises => cases locked <;> exact hsame _ _ h rfl
    case crash => exact hsame _ _ h rfl
  | counting archivedAt | cleaning | unwinding i | reporting archivedAt =>
    cases event <;> simp only [stepArchive, reduceCtorEq] at h
    all_goals exact hsame _ _ h rfl
  | writing i todo =>
    cases todo <;> cases event <;> simp only [stepArchive, reduceCtorEq] at h
    case nil.finishWriting => split_ifs at h <;> exact hsame _ _ h rfl
    all_goals exact hsame _ _ h rfl
  | flushed i =>
    cases event <;> simp only [stepArchive, reduceCtorEq] at h
    case replace =>
      split_ifs at h
      cases h
      exact .inr ⟨i, rfl, rfl⟩
    all_goals exact hsame _ _ h rfl
  | leaving outcome =>
    rcases outcome with _ | _ | ⟨_ | _, archivedAt⟩ | _
    all_goals
      cases event <;> simp only [stepArchive, reduceCtorEq] at h
      all_goals exact hsame _ _ h rfl
  | ended outcome | crashed => cases event <;> simp only [stepArchive, reduceCtorEq] at h

variable [DecidableEq κ] {s s' : Archive κ}

theorem recorded_step (hs : ArchiveInv py digest s) (hr : ∀ p, Recorded py digest p (s.files p)) {a : ArchiveAct}
    (h : s.step py digest a = some s') (p : κ) : Recorded py digest p (s'.files p) := by
  intro i hi
  obtain ⟨c, hkept⟩ := archive_kept hs h p
  -- a visible record stays as it is
  have hold : ∀ j, (s.files p).path = some j →
      ∃ call : ArchiveCall, digest (call.identity py) = p ∧
        Codec.load ((s'.files p).data i) = some (call.document py) := by
    intro j hj
    obtain ⟨hj', hdata⟩ := hkept.visible j hj
    obtain rfl := Option.some.inj (hj'.symm.trans hi)
    rw [hdata]
    exact hr p j hj
  rcases archive_step_cases h with ⟨c, call, -, rfl⟩ | ⟨c, event, call, phase, x, hcall, hx, rfl⟩
  · exact hr p i hi
  · simp only [Archive.after] at hi hold ⊢
    by_cases hp : p = digest (call.identity py)
    · subst hp
      rw [Function.update_self] at hi hold ⊢
      rcases stepArchive_path hx with hpath | ⟨j, rfl, hfiles⟩
      · exact hold i (hpath.symm.trans hi)
      · have hflushed := hs.call c call _ hcall
        rw [hfiles] at hi ⊢
        obtain rfl := Option.some.inj hi
        exact ⟨call, rfl, hflushed.2.2.2⟩
    · rw [Function.update_of_ne hp] at hi ⊢
      exact hr p i hi

theorem recorded_run {acts : List ArchiveAct} (h : Run (Archive.step py digest) Run.anyStep .start acts s) (p : κ) :
    Recorded py digest p (s.files p) := by
  have hstep : ∀ (s : Archive κ) (a : ArchiveAct) (t : Archive κ),
      (ArchiveInv py digest s ∧ ∀ p, Recorded py digest p (s.files p)) → Run.anyStep s a →
      s.step py digest a = some t → ArchiveInv py digest t ∧ ∀ p, Recorded py digest p (t.files p) :=
    fun _ _ _ hs _ hstep => ⟨archiveInv_step hs.1 hstep, recorded_step hs.1 hs.2 hstep⟩
  have hstart : ArchiveInv py digest (Archive.start : Archive κ) ∧
      ∀ p, Recorded py digest p ((Archive.start : Archive κ).files p) :=
    ⟨archiveInv_start, fun _ _ hi => by cases hi⟩
  exact (h.invariant hstep hstart).2 p

/-- Finitely many records are visible. -/
theorem visible_finite {acts : List ArchiveAct} (h : Run (Archive.step py digest) Run.anyStep .start acts s) :
    {p | (s.files p).path ≠ none}.Finite := by
  refine h.invariant (P := fun s => {p | (s.files p).path ≠ none}.Finite) (fun s a t hs _ hstep => ?_) ?_
  · rcases archive_step_cases hstep with ⟨c, call, -, rfl⟩ | ⟨c, event, call, phase, x, -, -, rfl⟩
    · exact hs
    · refine (hs.insert (digest (call.identity py))).subset fun p hp => ?_
      by_cases hpc : p = digest (call.identity py)
      · exact .inl hpc
      · right
        have hp' : (Function.update s.files (digest (call.identity py)) x.1 p).path ≠ none := hp
        rwa [Function.update_of_ne hpc] at hp'
  · refine Set.Finite.subset Set.finite_empty fun p hp => ?_
    exact absurd rfl hp

/-! ## What is returned -/

omit [DecidableEq κ] in
theorem document_version (call : ArchiveCall) :
    (call.document py).field "archive_schema_version" = .int archiveSchemaVersion := by
  refine Dict.field_of_get? (Dict.get?_ofList_of_mem ?_ ?_)
  · simp
  · simp

omit [DecidableEq κ] in
theorem document_observation (call : ArchiveCall) : (call.document py).field "observation" = .ofFields call.row := by
  refine Dict.field_of_get? (Dict.get?_ofList_of_mem ?_ ?_)
  · simp
  · simp

omit [DecidableEq κ] in
/-- A record passes the checks. -/
theorem readRecord_document (call : ArchiveCall) {contents : List Json.Token}
    (h : Codec.load contents = some (call.document py)) : readRecord py contents = .ok call.row := by
  have hid : (call.document py).field "observation_id" = .str (call.identity py) := archiveDocument_observationId ..
  have hsame : py.text ((Json.str (call.identity py)).orElse (.str "")) = observationIdOf py call.row := by
    unfold Json.orElse
    split_ifs with htruthy
    · rfl
    · have hempty : call.identity py = "" := by simpa [Json.truthy] using htruthy
      exact hempty.symm
  unfold readRecord
  rw [h]
  dsimp only
  rw [document_version, document_observation, hid, Json.fields?_ofFields, if_neg (by simp [Json.eqInt])]
  dsimp only
  rw [if_neg fun hne => hne hsame.symm]

/-- The file of a record. -/
def recordFile (s : Archive κ) (size : κ → Nat) (p : κ) : ArchiveFile where
  contents := ((s.files p).path.map (s.files p).data).getD []
  size := size p

/-- The files in an order that the file system may have them in: the records and other files. -/
def Lists (s : Archive κ) (size : κ → Nat) (others listing : List ArchiveFile) : Prop :=
  ∃ paths : List κ, paths.Nodup ∧ (∀ p, p ∈ paths ↔ (s.files p).path ≠ none) ∧
    listing.Perm (paths.map (recordFile s size) ++ others)

/-- The archived rows of a cohort. -/
def cohortRows (s : Archive κ) (trackingProfile : String) : Set Fields :=
  {row | ∃ p document, published (s.files p) = some document ∧ document.field "observation" = .ofFields row ∧
    (row.field "tracking_profile").isStr trackingProfile = true}

variable (fromisoformat : String → Option ℚ) (trackingProfile : String) (size : κ → Nat)

/-- What the pass reads of a visible record. -/
theorem readRecord_visible {acts : List ArchiveAct} (h : Run (Archive.step py digest) Run.anyStep .start acts s)
    {p : κ} (hp : (s.files p).path ≠ none) :
    ∃ call : ArchiveCall, digest (call.identity py) = p ∧ published (s.files p) = some (call.document py) ∧
      readRecord py (recordFile s size p).contents = .ok call.row := by
  obtain ⟨i, hi⟩ := Option.ne_none_iff_exists'.1 hp
  obtain ⟨call, hdigest, hload⟩ := recorded_run h p i hi
  refine ⟨call, hdigest, ?_, ?_⟩
  · unfold published
    rw [hi]
    exact hload
  · unfold recordFile
    dsimp only
    rw [hi]
    exact readRecord_document call hload

/-- The rows that the pass offers to its heap are those of the cohort. -/
theorem mem_cohortItems {acts : List ArchiveAct} (h : Run (Archive.step py digest) Run.anyStep .start acts s)
    {paths : List κ} (hpaths : ∀ p, p ∈ paths ↔ (s.files p).path ≠ none) (a : (ℚ ×ₗ String) × Fields) :
    a ∈ (paths.map (recordFile s size)).filterMap (cohortItem py fromisoformat trackingProfile) ↔
      a.2 ∈ cohortRows s trackingProfile ∧ a.1 = recordSortKey py fromisoformat a.2 := by
  rw [List.mem_filterMap]
  constructor
  · rintro ⟨file, hfile, ha⟩
    obtain ⟨p, hp, rfl⟩ := List.mem_map.1 hfile
    obtain ⟨call, -, hpub, hread⟩ := readRecord_visible size h ((hpaths p).1 hp)
    unfold cohortItem at ha
    rw [hread] at ha
    dsimp only at ha
    split_ifs at ha with hcohort
    cases ha
    exact ⟨⟨p, _, hpub, document_observation call, hcohort⟩, rfl⟩
  · rintro ⟨⟨p, document, hpub, hrow, hcohort⟩, hkey⟩
    have hvisible : (s.files p).path ≠ none := by
      intro hnone
      unfold published at hpub
      rw [hnone] at hpub
      cases hpub
    obtain ⟨call, -, hpub', hread⟩ := readRecord_visible size h hvisible
    have hdocument : document = call.document py := Option.some.inj (hpub.symm.trans hpub')
    have hsame : a.2 = call.row := by
      rw [hdocument, document_observation] at hrow
      have hfields := congrArg Json.fields? hrow
      rw [Json.fields?_ofFields, Json.fields?_ofFields] at hfields
      exact (Option.some.inj hfields).symm
    refine ⟨recordFile s size p, List.mem_map_of_mem ((hpaths p).2 hvisible), ?_⟩
    unfold cohortItem
    rw [hread]
    dsimp only
    rw [← hsame, if_pos hcohort, ← hkey]

/-- No two rows of an archive have one key. -/
theorem cohortItems_distinct {acts : List ArchiveAct} (h : Run (Archive.step py digest) Run.anyStep .start acts s)
    {paths : List κ} (hn : paths.Nodup) (hpaths : ∀ p, p ∈ paths ↔ (s.files p).path ≠ none) :
    ((paths.map (recordFile s size)).filterMap (cohortItem py fromisoformat trackingProfile)).Pairwise
      fun a b => a.1 ≠ b.1 := by
  rw [List.pairwise_filterMap, List.pairwise_map]
  refine hn.imp_of_mem fun {p q} hp hq hne a ha b hb hkeys => hne ?_
  have hidentity : ∀ {r : κ} {c : (ℚ ×ₗ String) × Fields}, r ∈ paths →
      cohortItem py fromisoformat trackingProfile (recordFile s size r) = some c → digest (ofLex c.1).2 = r := by
    intro r c hr hc
    obtain ⟨call, hdigest, -, hread⟩ := readRecord_visible size h ((hpaths r).1 hr)
    unfold cohortItem at hc
    rw [hread] at hc
    dsimp only at hc
    split_ifs at hc
    cases hc
    exact hdigest
  rw [← hidentity hp ha, ← hidentity hq hb, hkeys]

theorem rowLimit_pos (maximumRows : Int) : 0 < rowLimit maximumRows := by
  unfold rowLimit
  omega

/-- Archive loading does not depend on the order in which the file system has the files: for every
archive that its calls have written there is one list, the greatest rows of the cohort by time and id, at
most so many, in ascending order, which the pass returns in every order where all files are records. With
a file that is no record it raises in every order. -/
theorem loadResearchArchive_unordered {acts : List ArchiveAct}
    (h : Run (Archive.step py digest) Run.anyStep .start acts s) (maximumRows : Int) {others : List ArchiveFile}
    (hothers : ∀ file ∈ others, ∃ e, readRecord py file.contents = .error e) :
    ∃ rows statistics,
      Largest.Greatest (recordSortKey py fromisoformat) (rowLimit maximumRows) (cohortRows s trackingProfile) rows ∧
      ∀ listing, Lists s size others listing →
        if others = [] then
          loadResearchArchive py fromisoformat trackingProfile maximumRows listing = .ok (rows, statistics)
        else ∃ e, loadResearchArchive py fromisoformat trackingProfile maximumRows listing = .error e := by
  have hfinite := visible_finite h
  let paths := hfinite.toFinset.toList
  have hn : paths.Nodup := Finset.nodup_toList _
  have hpaths : ∀ p, p ∈ paths ↔ (s.files p).path ≠ none := by
    intro p
    rw [Finset.mem_toList, Set.Finite.mem_toFinset]
    rfl
  have hdistinct := cohortItems_distinct fromisoformat trackingProfile size h hn hpaths
  let scan := Scan.after py fromisoformat trackingProfile (rowLimit maximumRows) {} (paths.map (recordFile s size))
  refine ⟨(scan.result trackingProfile).1, (scan.result trackingProfile).2, ?_, fun listing hlisting => ?_⟩
  · have hheap := Largest.greatest_of_stream (rowLimit_pos maximumRows) hdistinct
    have hsorted : scan.heap.insertionSort (fun a b => a.1 ≤ b.1) = scan.heap :=
      (hheap.ascending.imp le_of_lt).insertionSort_eq
    have hitems : {a | a ∈ (paths.map (recordFile s size)).filterMap (cohortItem py fromisoformat trackingProfile)} =
        {a | a.2 ∈ cohortRows s trackingProfile ∧ a.1 = recordSortKey py fromisoformat a.2} :=
      Set.ext (mem_cohortItems fromisoformat trackingProfile size h hpaths)
    rw [hitems] at hheap
    unfold Scan.result
    rw [hsorted]
    exact hheap.items
  · obtain ⟨paths', hn', hpaths', hperm⟩ := hlisting
    unfold loadResearchArchive
    split_ifs with hall
    · have hsame : listing.Perm (paths.map (recordFile s size)) := by
        rw [hall, List.append_nil] at hperm
        refine hperm.trans (List.Perm.map _ ?_)
        exact (List.perm_ext_iff_of_nodup hn' hn).2 fun p => (hpaths' p).trans (hpaths p).symm
      have hread : ∀ file ∈ listing, ∃ row, readRecord py file.contents = .ok row := by
        intro file hfile
        obtain ⟨p, hp, rfl⟩ := List.mem_map.1 (hsame.mem_iff.1 hfile)
        obtain ⟨call, -, -, hread⟩ := readRecord_visible size h ((hpaths p).1 hp)
        exact ⟨call.row, hread⟩
      rw [foldlM_file _ hread]
      refine congrArg Except.ok ?_
      refine (result_perm hsame.symm hdistinct (rowLimit_pos maximumRows)).symm
    · obtain ⟨file, hfile⟩ := List.exists_mem_of_ne_nil others hall
      obtain ⟨e, he⟩ := hothers file hfile
      have hmem : file ∈ listing := hperm.mem_iff.2 (List.mem_append_right _ hfile)
      obtain ⟨e', he'⟩ : ∃ e', listing.foldlM
          (Scan.file py fromisoformat trackingProfile (rowLimit maximumRows)) {} = .error e' :=
        foldlM_file_error {} hmem he
      refine ⟨e', ?_⟩
      rw [he']
      rfl

end Records

/-! ## Two records -/

def cohortRow (observationId : String) (signalDetectedAt : Int) : Fields :=
  Dict.ofList [("observation_id", .str observationId), ("status", .str "COMPLETE"),
    ("tracking_profile", .str defaultCohort), ("signal_detected_at", .int signalDetectedAt)]

def laterCall : ArchiveCall := ⟨cohortRow "a" 20, "operational_ledger", "first", .direct, first_ne⟩

def earlierCall : ArchiveCall := ⟨cohortRow "bb" 10, "operational_ledger", "second", .direct, second_ne⟩

/-- What a call does that finds no record. -/
def archives (call : ArchiveCall) : List ArchiveEvent :=
  .acquire :: .exists :: .cleanUp [] ::
    (List.replicate (Codec.dump (call.document textOnly)).1.length ArchiveEvent.writeFragment ++
      [.finishWriting, .replace, .release, .countSuccess])

/-- The records of both calls. -/
def twoRecords : List ArchiveAct :=
  .begins 0 laterCall :: .begins 1 earlierCall ::
    ((archives laterCall).map (.happens 0) ++ (archives earlierCall).map (.happens 1))

theorem loadResearchArchive_unordered_two : ∃ s,
    Run (Archive.step textOnly String.length) Run.anyStep .start twoRecords s ∧ ∃ rows statistics,
      Largest.Greatest (recordSortKey textOnly fun _ => none) (rowLimit 1) (cohortRows s defaultCohort) rows ∧
      ∀ listing, Lists s (fun _ => 0) [] listing →
        if ([] : List ArchiveFile) = [] then
          loadResearchArchive textOnly (fun _ => none) defaultCohort 1 listing = .ok (rows, statistics)
        else ∃ e, loadResearchArchive textOnly (fun _ => none) defaultCohort 1 listing = .error e := by
  have hrun : ∃ s, Run (Archive.step textOnly String.length) Run.anyStep .start twoRecords s ∧
      (returnedBy s 0 = some (true, some "first") ∧ returnedBy s 1 = some (true, some "second")) :=
    Run.exists_of_any (by decide +kernel)
  obtain ⟨s, hrun, -⟩ := hrun
  exact ⟨s, hrun, loadResearchArchive_unordered (fun _ => none) defaultCohort (fun _ => 0) hrun 1
    fun _ hmem => by cases hmem⟩

/-- One file that is no record among those of an archive: nothing is returned. -/
theorem loadResearchArchive_raises : ¬ ∀ (κ : Type) (_ : DecidableEq κ) (py : Conversions) (digest : String → κ)
    (acts : List ArchiveAct) (s : Archive κ), Run (Archive.step py digest) Run.anyStep .start acts s →
    ∀ (fromisoformat : String → Option ℚ) (trackingProfile : String) (maximumRows : Int) (size : κ → Nat)
      (others : List ArchiveFile), (∀ file ∈ others, ∃ e, readRecord py file.contents = .error e) →
    ∃ rows, ∀ listing, Lists s size others listing → ∃ statistics,
      loadResearchArchive py fromisoformat trackingProfile maximumRows listing = .ok (rows, statistics) := by
  intro h
  have hmalformed : ∀ file ∈ [ArchiveFile.mk [] 0], ∃ e, readRecord textOnly file.contents = .error e := by
    intro file hfile
    rw [List.mem_singleton.1 hfile]
    exact ⟨.unreadable, rfl⟩
  obtain ⟨rows, hrows⟩ := h Nat inferInstance textOnly String.length [] .start (.nil _) (fun _ => none)
    defaultCohort 1 (fun _ => 0) [⟨[], 0⟩] hmalformed
  have hlists : Lists (Archive.start : Archive Nat) (fun _ => 0) [⟨[], 0⟩] [⟨[], 0⟩] :=
    ⟨[], List.nodup_nil, fun _ => ⟨fun hmem => absurd hmem List.not_mem_nil, fun hne => absurd rfl hne⟩,
      List.Perm.refl _⟩
  obtain ⟨statistics, hok⟩ := hrows _ hlists
  cases hok

end Aibot.Research
