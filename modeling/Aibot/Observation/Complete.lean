/-
Archive completeness: a row that retention drops has a record that says what the row said. It holds
in the runs that write nothing new to an observation that has been copied; the writers do not check
that, so in other runs it fails.
-/
import Aibot.Observation.Archive

namespace Aibot.Observation

open Aibot.Risk

/-- Archive completeness, in every run that writes nothing new to an observation that has been
copied. -/
theorem archive_complete {acts : List ResearchAct} {s : Research}
    (h : Run Research.step sparesCaptured Research.start acts s) : ArchiveComplete s :=
  (h.invariant (fun _ _ _ hs hok h => archiveInv_step hs hok h) archiveInv_start).complete

/-- The n-th of a family of candidates. -/
def sampleDiscovery (n : Nat) : DiscoveryRequest where
  mint := "mint"
  routeType := .A
  sourceWallet := "wallet"
  sourceSignature := String.ofList (List.replicate n 'x')
  tokenAmountRaw := 1000
  dexMomentumScore := 0

def sampleFinalize (decisionStatus : DecisionStatus) : FinalizeRequest where
  observationId := (sampleDiscovery 0).observationId
  decisionStatus := decisionStatus
  decisionReasons := []
  quoteStatus := "PROCESSING_FAILED"
  safetyScore := none
  analysisCompletedAt := none

theorem not_captured {s : Research} (hrecords : s.records = fun _ => none) (hdrains : s.drains = fun _ => none)
    (id : ObservationId) : ¬ Captured s id := by
  rintro ⟨c, h⟩
  cases h with
  | record h => rw [hrecords] at h; cases h
  | snapshot h => rw [hdrains] at h; cases h

/-- A step of a drain. -/
def isDrain (_ : Research) : ResearchAct → Prop
  | .writes _ => False
  | _ => True

instance (s : Research) : (a : ResearchAct) → Decidable (isDrain s a)
  | .writes _ => .isFalse id
  | .snapshot _ | .archives .. | .persists _ | .abandon _ => .isTrue trivial

/-- The first candidate is discovered. -/
def sampleDiscovered : Research :=
  Research.start.save ((ObservationOp.discovery (sampleDiscovery 0) 0).write Research.start.rows)

theorem archive_complete_archived : ∃ s, Run Research.step sparesCaptured Research.start
    [.writes (.discovery (sampleDiscovery 0) 0), .writes (.finalize (sampleFinalize .unavailable) 1),
      .snapshot 0, .archives 0 .marked 2, .persists 0] s ∧
    s.rows.map Row.archived = [true] ∧ ArchiveComplete s := by
  have hdrain : ∃ s, Run Research.step isDrain
      (sampleDiscovered.save
        ((ObservationOp.finalize (sampleFinalize .unavailable) 1).write sampleDiscovered.rows))
      [.snapshot 0, .archives 0 .marked 2, .persists 0] s ∧ s.rows.map Row.archived = [true] :=
    Run.exists_of_any (by decide +kernel)
  obtain ⟨s, hdrained, harchived⟩ := hdrain
  have hspares : Run Research.step sparesCaptured _ _ s := hdrained.weaken fun s a h => by
    cases a with
    | writes _ => exact h.elim
    | _ => trivial
  have hrun : Run Research.step sparesCaptured Research.start
      [.writes (.discovery (sampleDiscovery 0) 0), .writes (.finalize (sampleFinalize .unavailable) 1),
        .snapshot 0, .archives 0 .marked 2, .persists 0] s := by
    refine .cons (fun _ => ⟨by decide +kernel, not_captured rfl rfl _⟩) rfl (.cons ?_ rfl hspares)
    exact fun _ _ _ hcap => absurd hcap (not_captured rfl rfl _)
  exact ⟨s, hrun, harchived, archive_complete hrun⟩

/-! ## A copy that is out of date -/

/-- The observation of a candidate ends, is archived and marked; then a second delivery of the same
signal ends it again. -/
def changedAfterCopy : List ResearchAct :=
  [.writes (.discovery (sampleDiscovery 0) 0), .writes (.finalize (sampleFinalize .unavailable) 1),
    .snapshot 0, .archives 0 .marked 2, .persists 0, .writes (.finalize (sampleFinalize .failed) 3)]

/-- A marked row alone in the ledger, with a record of another decision. -/
def outdatedCopy (s : Research) : Bool :=
  match s.rows with
  | [row] => row.observationId = (sampleDiscovery 0).observationId && row.completed && row.archived &&
      (s.records (strip row.observationId)).any fun record =>
        record.observation.decisionStatus ≠ row.decisionStatus
  | _ => false

theorem sampleDiscovery_injective {m n : Nat}
    (h : (sampleDiscovery m).observationId = (sampleDiscovery n).observationId) : m = n := by
  have hlen := congrArg String.length h
  simp only [DiscoveryRequest.observationId, observationKey, sampleDiscovery] at hlen
  simpa [toString, String.length_append] using hlen

/-- The discoveries of the candidates from the first to the n-th. -/
def discoveries (n : Nat) : List ResearchAct :=
  (List.range n).map fun k => .writes (.discovery (sampleDiscovery (k + 1)) 4)

theorem discoveries_succ (n : Nat) :
    discoveries (n + 1) = discoveries n ++ [.writes (.discovery (sampleDiscovery (n + 1)) 4)] := by
  unfold discoveries
  rw [List.range_succ, List.map_append]; rfl

/-- Nothing is dropped up to the cap, and something is dropped beyond it if something is completed. -/
theorem overflow_of_le {rows : List Row} (h : rows.length ≤ maxObservations) :
    completedOverflow rows = 0 := by
  have hsum := List.length_eq_length_filter_add (l := rows) Row.completed
  unfold completedOverflow
  omega

theorem overflow_of_lt {rows : List Row} (h : maxObservations < rows.length) {row : Row}
    (hrow : row ∈ rows) (hc : row.completed = true) : 0 < completedOverflow rows := by
  have hsum := List.length_eq_length_filter_add (l := rows) Row.completed
  have hpos : 0 < (rows.filter Row.completed).length :=
    List.length_pos_of_mem (List.mem_filter.2 ⟨hrow, hc⟩)
  unfold completedOverflow
  omega

/-- The expiry leaves a completed row at the head. -/
theorem expire_cons (now : Int) {row : Row} (hc : row.completed = true) (rows : List Row) :
    ∃ rest, expireObservationBacklog now (row :: rows) = row :: rest := by
  have hexp : row.expirable = false := by
    unfold Row.completed at hc
    unfold Row.expirable
    simp [(Bool.and_eq_true_iff.1 hc).1]
  unfold expireObservationBacklog
  generalize (List.filter Row.expirable (row :: rows)).length - maxActiveObservations = n
  cases n with
  | zero => exact ⟨rows, by simp [mapFirst]⟩
  | succ n => exact ⟨mapFirst Row.expirable (fun row => row.expire now) (n + 1) rows, by simp [mapFirst, hexp]⟩

/-- The next candidate comes in behind a completed row. -/
theorem next_write {s : Research} {row : Row} {rest : List Row} {n : Nat} (hc : row.completed = true)
    (hs : s.rows = row :: rest) (hids : s.rows.map Row.observationId =
      (List.range (n + 1)).map fun k => (sampleDiscovery k).observationId) :
    ∃ rest', (ObservationOp.discovery (sampleDiscovery (n + 1)) 4).write s.rows = .retain (row :: rest') ∧
      (row :: rest').map Row.observationId =
        (List.range (n + 2)).map fun k => (sampleDiscovery k).observationId := by
  have hnew : findRow s.rows (sampleDiscovery (n + 1)).observationId = none := by
    rw [findRow_none, hids]
    intro hmem
    obtain ⟨k, hk, he⟩ := List.mem_map.1 hmem
    have := sampleDiscovery_injective he
    have := List.mem_range.1 hk
    omega
  obtain ⟨rest', hexp⟩ := expire_cons 4 hc (rest ++ [(sampleDiscovery (n + 1)).row 4])
  refine ⟨rest', ?_, ?_⟩
  · simp only [ObservationOp.write, recordCandidateDiscovery, hnew]
    rw [hs, List.cons_append, hexp]
  · have hkeys := map_expire Row.observationId 4 (fun _ => rfl)
      (s.rows ++ [(sampleDiscovery (n + 1)).row 4])
    rw [hs, List.cons_append, hexp] at hkeys
    rw [hkeys, ← List.cons_append, ← hs, List.map_append, hids, List.range_succ (n := n + 1),
      List.map_append]
    rfl

/-- A marked row at the head stays there while other candidates come in. -/
theorem fill {s₀ : Research} {row : Row} (hrows : s₀.rows = [row])
    (hid : row.observationId = (sampleDiscovery 0).observationId) (hc : row.completed = true) :
    ∀ n < maxObservations, ∃ s rest,
      Run Research.step Run.anyStep s₀ (discoveries n) s ∧ s.rows = row :: rest ∧
      s.rows.map Row.observationId = (List.range (n + 1)).map (fun k => (sampleDiscovery k).observationId) ∧
      s.records = s₀.records
  | 0, _ => ⟨s₀, [], .nil s₀, hrows, by rw [hrows]; simp [hid], rfl⟩
  | n + 1, hn => by
    obtain ⟨s, rest, hrun, hs, hids, hrecords⟩ := fill hrows hid hc n (by omega)
    obtain ⟨rest', hwrite, hkeys⟩ := next_write hc hs hids
    have hlen : (row :: rest').length ≤ maxObservations := by
      have := congrArg List.length hkeys
      simp only [List.length_map, List.length_range] at this
      omega
    have hkept : archiveAndRetainObservations (row :: rest') = row :: rest' := by
      unfold archiveAndRetainObservations
      rw [overflow_of_le hlen]; simp [dropFirst]
    rw [discoveries_succ]
    refine ⟨_, rest', hrun.concat trivial rfl, ?_, ?_, hrecords⟩
    · rw [hwrite]; exact hkept
    · rw [hwrite]
      show (archiveAndRetainObservations (row :: rest')).map _ = _
      rw [hkept]; exact hkeys

/-- The row that changed after it was copied is the first to be dropped; its record says something
else. -/
theorem evicted_outdated : ∃ s, Run Research.step Run.anyStep Research.start
    (changedAfterCopy ++ discoveries maxObservations) s ∧ ¬ ArchiveComplete s := by
  obtain ⟨s₀, hrun₀, hs₀⟩ : ∃ s, Run Research.step Run.anyStep Research.start changedAfterCopy s ∧
      outdatedCopy s = true := Run.exists_of_any (by decide +kernel)
  unfold outdatedCopy at hs₀
  split at hs₀
  · rename_i row hrows
    simp only [Bool.and_eq_true, decide_eq_true_eq] at hs₀
    obtain ⟨⟨⟨hid, hc⟩, harch⟩, hrecord⟩ := hs₀
    obtain ⟨record, hrecord, hne⟩ := (Option.any_eq_true _ _).1 hrecord
    obtain ⟨n, hn⟩ : ∃ n, maxObservations = n + 1 := ⟨999, by unfold maxObservations; rfl⟩
    obtain ⟨s, rest, hrun, hs, hids, hrecords⟩ := fill hrows hid hc n (by omega)
    obtain ⟨rest', hwrite, hkeys⟩ := next_write hc hs hids
    have hlen := congrArg List.length hkeys
    simp only [List.length_map, List.length_range] at hlen
    have hover : 0 < completedOverflow (row :: rest') := overflow_of_lt (by omega) List.mem_cons_self hc
    have hgone : row ∈ evictedObservations (row :: rest') := by
      obtain ⟨k, hk⟩ : ∃ k, completedOverflow (row :: rest') = k + 1 := ⟨_, (Nat.sub_add_cancel hover).symm⟩
      unfold evictedObservations
      rw [hk]; simp [droppedFirst, hc, harch]
    refine ⟨_, hrun₀.append (by rw [hn, discoveries_succ]; exact hrun.concat trivial rfl), fun hall => ?_⟩
    rw [hwrite] at hall
    obtain ⟨record', hrecord', -, hcontent⟩ :=
      hall _ (List.mem_append_right _ (List.mem_map.2 ⟨row, hgone, rfl⟩))
    rw [hrecords] at hrecord'
    obtain rfl := Option.some.inj (hrecord.symm.trans hrecord')
    exact (of_decide_eq_true hne) (congrArg (fun c => c.2.1) hcontent)
  · cases hs₀

end Aibot.Observation
